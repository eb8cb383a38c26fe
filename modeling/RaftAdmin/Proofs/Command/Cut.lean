import RaftAdmin.Cluster.Basic
import RaftAdmin.Proofs.Command.ExitCode
import RaftAdmin.Proofs.Script.Outlet

/-!
# A command that is cut short

A command that cannot write a line gives up: it makes no further calls, whatever it still tries to
report, and does not claim success. So a stream that breaks makes a command stop early, but never do
anything else.

## The model

`Stops` says this of a conversation and its result. Two conversations of which one is cut short are
those of `Outlet.CutsTo`.

## What is proved

* `stops_of_doing`, `stops_of_course` — after a line that cannot be written there are no more calls,
  and no success.
* **`execute_cut`** — with a stream that breaks, a command writes a prefix of what it writes with
  one that does not, and makes a prefix of the calls; and if a line cannot be written it fails.
-/

namespace RaftAdmin

open Script (Path)

variable {xs us vs : List Turn} {result : Except AdminError Int}

theorem Action.Inquires.not_unwritten {x : Turn} (h : x.action.Inquires) : ¬ x.Unwritten := by
  obtain ⟨action, reply⟩ := x
  cases action with
  | print fragments => exact h.elim
  | _ => exact id

/-- The calls of a conversation come before the first line that cannot be written. -/
def Quits (xs : List Turn) : Prop :=
  ∃ us vs, xs = us ++ vs ∧ (∀ u ∈ us, ¬ u.Unwritten) ∧ ∀ v ∈ vs, v.action.calls = false

/-- If a line cannot be written, there are no calls after it, and no success. -/
structure Stops (xs : List Turn) (result : Except AdminError Int) : Prop where
  /-- There are no calls after it. -/
  quits : Quits xs
  /-- There is no success. -/
  fails : (∃ x ∈ xs, x.Unwritten) → result ≠ .ok exitOk

theorem Quits.prepend (hus : ∀ u ∈ us, ¬ u.Unwritten) (h : Quits xs) : Quits (us ++ xs) := by
  obtain ⟨ys, zs, rfl, hys, hzs⟩ := h
  exact ⟨us ++ ys, zs, (List.append_assoc _ _ _).symm, List.forall_mem_append.mpr ⟨hus, hys⟩, hzs⟩

theorem Quits.append (h : Quits xs) (hvs : ∀ v ∈ vs, v.action.calls = false) :
    Quits (xs ++ vs) := by
  obtain ⟨ys, zs, rfl, hys, hzs⟩ := h
  exact ⟨ys, zs ++ vs, List.append_assoc _ _ _, hys, List.forall_mem_append.mpr ⟨hzs, hvs⟩⟩

theorem quits_of_quiet (h : ∀ x ∈ xs, x.action.calls = false) : Quits xs :=
  ⟨[], xs, rfl, by simp, h⟩

namespace Stops

theorem prepend (hus : ∀ u ∈ us, ¬ u.Unwritten) (h : Stops xs result) :
    Stops (us ++ xs) result where
  quits := h.quits.prepend hus
  fails := by
    rintro ⟨x, hx, hunwritten⟩
    refine h.fails ⟨x, (List.mem_append.mp hx).resolve_left ?_, hunwritten⟩
    exact fun hx => hus x hx hunwritten

theorem cons {x : Turn} (hx : ¬ x.Unwritten) (h : Stops xs result) : Stops (x :: xs) result :=
  prepend (List.forall_mem_singleton.mpr hx) h

theorem append (h : Stops xs result)
    (hvs : ∀ v ∈ vs, v.action.calls = false ∧ ¬ v.Unwritten) : Stops (xs ++ vs) result where
  quits := h.quits.append fun v hv => (hvs v hv).1
  fails := by
    rintro ⟨x, hx, hunwritten⟩
    refine h.fails ⟨x, (List.mem_append.mp hx).resolve_right ?_, hunwritten⟩
    exact fun hx => (hvs x hx).2 hunwritten

/-- What makes no calls and fails, stops. -/
theorem of_failure (hxs : ∀ x ∈ xs, x.action.calls = false) (hresult : result ≠ .ok exitOk) :
    Stops xs result :=
  ⟨quits_of_quiet hxs, fun _ => hresult⟩

/-- A command ends with a line. -/
theorem line (fragments : List String) (code : Int) (written : Except String Unit) :
    Stops [.line fragments written] (told code written) where
  quits := quits_of_quiet (List.forall_mem_singleton.mpr rfl)
  fails := by
    rintro ⟨x, hx, hunwritten⟩
    obtain rfl := List.mem_singleton.mp hx
    cases written with
    | ok => exact hunwritten.elim
    | error cause => exact nofun

end Stops

/-! ### Errands -/

variable {r : ResolvedGroup} {errand : Errand}

theorem stops_of_submitting {peers : List Peer} {context : String}
    (h : Submitting r peers context xs result) : Stops xs result := by
  cases h with
  | unanswered failure => exact .cons id (.of_failure (by simp) nofun)
  | declined reply written hreply =>
    exact .cons id (.of_failure (List.forall_mem_singleton.mpr rfl) nofun)
  | accepted reply written hreply => exact .cons id (.line _ exitOk written)

theorem told_exitError_ne (written : Except String Unit) : told exitError written ≠ .ok exitOk := by
  cases written with
  | ok => exact fun h => exitError_ne (Except.ok.inj h)
  | error cause => exact nofun

theorem stops_of_transferring {group : Group} {id : PeerId} {timeout : Nat}
    (h : Transferring group id timeout xs result) : Stops xs result := by
  cases h with
  | unanswered failure written =>
    exact .cons not_false (.of_failure (by simp [Turn.line, Action.calls])
      (told_exitError_ne written))
  | declined reply shown written hreply =>
    exact .cons not_false (.of_failure (by simp [rejectionLine, Turn.line, Action.calls])
      (told_exitError_ne written))
  | accepted reply written hreply =>
    exact .cons not_false (.cons not_false (.line _ exitOk written))

theorem stops_of_handingOver {member : Peer} {settle timeout : Nat}
    (h : HandingOver r member settle timeout xs result) : Stops xs result := by
  cases h with
  | unannounced cause => exact .of_failure (List.forall_mem_singleton.mpr rfl) nofun
  | unanswered failure => exact .cons id (.cons id (.of_failure (by simp) nofun))
  | declined reply written hreply =>
    exact .cons id (.cons id (.of_failure (List.forall_mem_singleton.mpr rfl) nofun))
  | untold reply cause hreply =>
    exact .cons id (.cons id (.of_failure (List.forall_mem_singleton.mpr rfl) nofun))
  | asked reply hreply htransferring =>
    exact .cons id (.cons id (.cons id (.cons id (stops_of_transferring htransferring))))

theorem stops_of_writing {lines : List (List String)} {shown : Except AdminError Unit}
    (h : Writing lines xs shown) : Stops xs (shown.map fun _ => exitOk) := by
  induction h with
  | done => exact ⟨quits_of_quiet (by simp), by simp⟩
  | next line _ ih => exact ih.cons id
  | broken line lines cause => exact .of_failure (List.forall_mem_singleton.mpr rfl) nofun

theorem stops_of_telling (h : Telling r xs result) : Stops xs result := by
  cases h with
  | memberless hpeers => exact .of_failure (by simp) nofun
  | unanswered hpeers failure => exact .cons id (.of_failure (by simp) nofun)
  | declined hpeers info written hreply =>
    exact .cons id (.of_failure (List.forall_mem_singleton.mpr rfl) nofun)
  | told hpeers info hreply hwriting => exact .cons id (stops_of_writing hwriting)

theorem stops_of_connected {group : Group} {body : List Turn → Except AdminError Int → Prop}
    (hbody : ∀ ys, body ys result → Stops ys result) (h : Connected group body xs result) :
    Stops xs result := by
  rcases h with ⟨failure, rfl, rfl⟩ | ⟨ys, hys, rfl⟩
  · exact .cons id (.of_failure (by simp) nofun)
  · exact .append (.cons id (hbody ys hys)) (List.forall_mem_singleton.mpr ⟨rfl, id⟩)

/-- After a line that cannot be written an errand makes no more calls, and does not succeed. -/
theorem stops_of_doing (h : Doing r errand xs result) : Stops xs result := by
  cases h with
  | unshown cause => exact .of_failure (List.forall_mem_singleton.mpr rfl) nofun
  | inspect hconnected => exact .cons id (stops_of_connected (fun _ => stops_of_telling) hconnected)
  | stranger target settle timeout hnone => exact .of_failure (by simp) nofun
  | lead target settle timeout hmember hconnected =>
    exact stops_of_connected (fun _ => stops_of_handingOver) hconnected
  | submit errand context events hchanges hpeers hconnected =>
    exact .prepend (by simp [Turn.Unwritten])
      (stops_of_connected (fun _ => stops_of_submitting) hconnected)

/-! ### Commands -/

variable {conf : Configuration} {command : Command} {code : Int}

/-- After a line that cannot be written a command makes no more calls, and does not succeed. -/
theorem stops_of_course (h : Course command conf xs code) : Stops xs (.ok code) := by
  have hne : ∀ e : AdminError, (.ok e.exitCode : Except AdminError Int) ≠ .ok exitOk :=
    fun e h => e.exitCode_ne (Except.ok.inj h)
  cases h with
  | refused e hrefused why how what =>
    exact .of_failure (by simp [Turn.line, Action.calls]) (hne e)
  | unresolved e hys written =>
    refine .cons id (.prepend (fun y hy => (hys y hy).not_unwritten) (.of_failure ?_ (hne e)))
    simp [Turn.line, Action.calls]
  | resolved hresolves hdoing hreporting =>
    obtain ⟨-, us, hus, rfl, -⟩ := exists_of_resolves hresolves
    refine .prepend (fun u hu => (hus u hu).not_unwritten) ?_
    have hstops := stops_of_doing hdoing
    cases hreporting with
    | finished code => rwa [List.append_nil]
    | failed e written =>
      exact ⟨hstops.quits.append (by simp [Turn.line, Action.calls]), fun _ => hne e⟩

/-! ### The two runs -/

theorem prefix_of_cutsTo {ys : List Turn} (h : Outlet.CutsTo xs ys) (hquits : Quits ys) :
    ys.filter (·.action.calls) <+: xs.filter (·.action.calls) := by
  cases h with
  | whole xs => exact List.prefix_rfl
  | cut zs fragments cause xs ys =>
    obtain ⟨us, vs, hsplit, hus, hvs⟩ := hquits
    -- the line that cannot be written is not among those before the last call
    have hys : ∀ y ∈ ys, y.action.calls = false := by
      intro y hy
      refine hvs y ?_
      rcases List.append_eq_append_iff.mp hsplit with ⟨as, rfl, hrest⟩ | ⟨as, rfl, hrest⟩
      · cases as with
        | nil =>
          rw [← List.nil_append vs, ← hrest]
          exact List.mem_cons_of_mem _ hy
        | cons a as =>
          obtain ⟨rfl, -⟩ := List.cons.inj hrest
          exact (hus _ List.mem_append_cons_self trivial).elim
      · rw [hrest]
        simp [hy]
    have hnone : ys.filter (·.action.calls) = [] := List.filter_eq_nil_iff.mpr fun y hy => by
      simp [hys y hy]
    rw [List.filter_append, List.filter_append, List.filter_cons_of_neg (by simp [Action.calls]),
      hnone, List.append_nil]
    exact List.prefix_append _ _

/-- **A command that is cut short.** Compare a command that is run with a stream that never breaks,
and with one that takes nothing more once it fails: what the latter takes is a prefix of what is
written to the former, the calls that are then made, with the replies to them, are a prefix of those
made otherwise, and if a line cannot be written the command does not end with exit code 0. -/
theorem execute_cut {σ τ : Type} (k : Connector σ) (o : Outlet τ) (conf : Configuration)
    (command : Command) (cluster : σ) (u : τ) :
    let p := Shell.execute conf command
    let s : Session σ := .start cluster conf none
    let xs := p.turns (Session.world k) s
    let ys := p.turns (o.world k) (s, u)
    let cut := p.run (o.world k) (s, u)
    (∃ part, part <+: bytes (Session.run k p s).2.sink.written ∧
      o.taken cut.2.2 = o.taken u ++ part) ∧
    ys.filter (·.action.calls) <+: xs.filter (·.action.calls) ∧
    ((∃ y ∈ ys, y.Unwritten) → cut.1 ≠ exitOk) := by
  intro p s xs ys cut
  obtain ⟨hcuts, text, part, hwritten, hpart, htaken⟩ :=
    Outlet.lockstep (o := o) (k := k) (s := s) p rfl (Eq.refl s.cluster) u
  have hstops : Stops ys (.ok cut.1) :=
    stops_of_course (course_of_path (Script.path_run (o.world k) p (s, u)))
  refine ⟨⟨part, ?_, htaken⟩, prefix_of_cutsTo hcuts hstops.quits, fun hunwritten hcode => ?_⟩
  · have htext : (Session.run k p s).2.sink.written = text := hwritten.trans String.empty_append
    rwa [htext]
  · exact hstops.fails hunwritten (congrArg _ hcode)

/-- A peer whose addition cannot be shown is added, and the command fails. -/
example :
    let ended := Session.run Cluster.connector
      (Shell.execute .empty ⟨.quorumAdd ["h2:9870"], ⟨some "h1:9870", none, none⟩⟩)
      (.start lone .empty (some 0))
    ended.1 = exitError ∧ ended.2.cluster.groups.map (·.group.peers.length) = [2] := by
  decide +kernel

end RaftAdmin
