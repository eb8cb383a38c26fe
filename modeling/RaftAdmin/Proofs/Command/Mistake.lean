import RaftAdmin.Cluster.Basic
import RaftAdmin.Proofs.Command.Arguments
import RaftAdmin.Script.Session

/-!
# Mistakes of the operator

A command can fail by what the operator gave it: a malformed address, argument or property, or a
list option without values. All of these are found out before the command connects to anybody, and
whatever goes wrong later is an error of another kind.

## What is proved

* `malformed_of_plan` — what is wrong with a request is something malformed.
* `blameless_of_gather`, `blameless_of_doing` — asking the candidates, and doing an errand with a
  resolved group, fails by errors of other kinds only, whatever the cluster replies.
* **`isMistake_iff_unconnected`** — the error of a command is a mistake of the operator exactly if
  the command has not tried to connect to anybody.
-/

namespace RaftAdmin

open Script (Path)

variable {xs : List Turn} {e : AdminError}

/-! ### Reading a request -/

section

variable {request : GroupRequest} {c : Configuration}

theorem malformed_of_peerText (h : (request.peerText c).1 = .error e) : e.Malformed := by
  unfold GroupRequest.peerText at h
  split at h
  · cases h
  · next service _ _ =>
    dsimp only at h
    generalize (c.afterTemplateKey .servicePeers service).get _ = value at h
    cases value with
    | error cause =>
      obtain rfl := Except.error.inj h
      trivial
    | ok list => cases h
  · obtain rfl := Except.error.inj h
    trivial

theorem malformed_of_addressesOf {list : String} (h : GroupRequest.addressesOf list = .error e) :
    e.Malformed := by
  unfold GroupRequest.addressesOf at h
  split at h
  · next e' hlist =>
    obtain rfl := Except.error.inj h
    obtain ⟨part, -, hpart⟩ := exists_mem_of_mapM_error hlist
    exact malformed_of_readAddress hpart
  · split at h
    · obtain rfl := Except.error.inj h
      trivial
    · cases h

theorem malformed_of_addresses (h : (request.addresses c).1 = .error e) : e.Malformed := by
  unfold GroupRequest.addresses at h
  split at h
  · next e' c' htext =>
    obtain rfl := Except.error.inj h
    exact malformed_of_peerText (congrArg Prod.fst htext)
  · exact malformed_of_addressesOf h

/-- A configured group id that cannot be used is no fault, but a read that never ends is handed
on. -/
theorem malformed_of_serviceSeed {service : String} {k : PropertyKey}
    (h : (GroupRequest.serviceSeed service k c).1 = .error e) : e.Malformed := by
  unfold GroupRequest.serviceSeed at h
  split at h
  · obtain rfl := Except.error.inj h
    trivial
  · cases h
  · split at h <;> cases h

theorem malformed_of_seed (h : (request.seed c).1 = .error e) : e.Malformed := by
  unfold GroupRequest.seed at h
  split at h
  · split at h
    · cases h
    · obtain rfl := Except.error.inj h
      trivial
  · cases h
  · exact malformed_of_serviceSeed h

/-- What is wrong with a request is something malformed. -/
theorem malformed_of_plan (h : Resolution.plan c request = .error e) : e.Malformed := by
  unfold Resolution.plan at h
  cases haddresses : (request.addresses c).1 with
  | error e' =>
    rw [haddresses] at h
    cases h
    exact malformed_of_addresses haddresses
  | ok addresses =>
    rw [haddresses] at h
    cases hseed : (request.seed (request.addresses c).2).1 with
    | error e' =>
      rw [hseed] at h
      cases h
      exact malformed_of_seed hseed
    | ok seed =>
      rw [hseed] at h
      change Resolution.seeded seed addresses = .error e at h
      unfold Resolution.seeded at h
      split at h
      · obtain rfl := Except.error.inj h
        trivial
      · cases h

end

/-! ### Asking the candidates -/

section

variable {α β : Type}

/-- The result is not the operator's mistake. -/
def Blameless : Except AdminError α → Prop
  | .ok _ => True
  | .error e => ¬ e.IsMistake

theorem Blameless.map {r : Except AdminError α} (h : Blameless r) (f : α → β) :
    Blameless (r.map f) := by
  cases r with
  | ok a => trivial
  | error e => exact h

theorem blameless_internal (failure : RpcFailure) :
    Blameless (.error (.internal failure) : Except AdminError α) := by
  simp [Blameless, AdminError.isMistake_iff, AdminError.Malformed]

theorem blameless_noReachablePeer (question : String) (peers : List String) :
    Blameless (.error (.noReachablePeer question peers) : Except AdminError α) := by
  simp [Blameless, AdminError.isMistake_iff, AdminError.Malformed]

variable {candidates : Group} {seed : Seed}

theorem blameless_of_askAll {inquiry : Inquiry}
    {ask : Peer → Script (Except RpcFailure (Option β))} {r : Except AdminError β}
    (h : Path (Resolution.askAll candidates inquiry ask).run xs r) : Blameless r := by
  obtain ⟨found, -, rfl⟩ := Resolution.path_askAll h
  cases found with
  | some value => trivial
  | none => exact blameless_noReachablePeer _ _

theorem blameless_sole (ids : List GroupId) : Blameless (Resolution.sole ids) := by
  unfold Resolution.sole
  split
  · trivial
  · simp [Blameless, AdminError.isMistake_iff, AdminError.Malformed]

theorem blameless_of_discover {r : Except AdminError GroupId}
    (h : Path (Resolution.discover candidates).run xs r) : Blameless r := by
  obtain ⟨ys, us, found, hfound, -, -, rfl⟩ := Resolution.path_discover h
  cases found with
  | error e =>
    have hblameless := blameless_of_askAll hfound
    exact hblameless
  | ok ids => exact blameless_sole ids

theorem blameless_of_inquire {r : Except AdminError (GroupId × GroupInfoReply)}
    (h : Path (Resolution.inquire candidates seed).run xs r) : Blameless r := by
  rcases Resolution.path_inquire h with
    ⟨e, -, hdiscover, rfl⟩ | ⟨id, ys, zs, found, -, hfetch, -, rfl⟩
  · exact blameless_of_discover hdiscover
  · exact (blameless_of_askAll hfetch).map _

variable {r : Except AdminError ResolvedGroup}

/-- Whatever the candidates reply, it is no mistake of the operator. -/
theorem blameless_of_gather (h : Path (Resolution.gather candidates seed).run xs r) :
    Blameless r := by
  rcases Resolution.path_gather h with ⟨failure, -, rfl⟩ | ⟨ys, us, found, hinquire, -, -, rfl⟩
  · exact blameless_internal failure
  · exact (blameless_of_inquire hinquire).map _

/-- The candidates are asked over a connection. -/
theorem connects_of_gather (h : Path (Resolution.gather candidates seed).run xs r) :
    ∃ x ∈ xs, x.action.connects := by
  rcases Resolution.path_gather h with ⟨failure, rfl, -⟩ | ⟨ys, us, found, -, -, rfl, -⟩
  · exact ⟨_, List.mem_cons_self, rfl⟩
  · exact ⟨_, List.mem_cons_self, rfl⟩

end

/-! ### Errands -/

section

variable {r : ResolvedGroup} {result : Except AdminError Int}

theorem blameless_output {α : Type} (cause : String) :
    Blameless (.error (.output cause) : Except AdminError α) := by
  simp [Blameless, AdminError.isMistake_iff, AdminError.Malformed]

theorem blameless_rejection (context : String) (reply : ClientReply)
    (written : Except String Unit) :
    Blameless (.error (rejection context reply written) : Except AdminError Int) := by
  cases written with
  | ok => simp [Blameless, rejection, AdminError.isMistake_iff, AdminError.Malformed]
  | error cause => exact blameless_output cause

theorem blameless_told (code : Int) (written : Except String Unit) :
    Blameless (told code written) := by
  cases written with
  | ok => trivial
  | error cause => exact blameless_output cause

theorem blameless_of_submitting {peers : List Peer} {context : String}
    (h : Submitting r peers context xs result) : Blameless result := by
  cases h with
  | unanswered failure => exact blameless_internal failure
  | declined reply written hreply => exact blameless_rejection context reply written
  | accepted reply written hreply => exact blameless_told exitOk written

theorem blameless_of_transferring {group : Group} {id : PeerId} {timeout : Nat}
    (h : Transferring group id timeout xs result) : Blameless result := by
  cases h with
  | unanswered failure written => exact blameless_told exitError written
  | declined reply shown written hreply => exact blameless_told exitError written
  | accepted reply written hreply => exact blameless_told exitOk written

theorem blameless_of_handingOver {member : Peer} {settle timeout : Nat}
    (h : HandingOver r member settle timeout xs result) : Blameless result := by
  cases h with
  | unannounced cause => exact blameless_output cause
  | unanswered failure => exact blameless_internal failure
  | declined reply written hreply => exact blameless_rejection preferenceContext reply written
  | untold reply cause hreply => exact blameless_output cause
  | asked reply hreply htransferring => exact blameless_of_transferring htransferring

theorem blameless_of_writing {lines : List (List String)} {shown : Except AdminError Unit}
    (h : Writing lines xs shown) : Blameless shown := by
  induction h with
  | done => trivial
  | next line _ ih => exact ih
  | broken line lines cause => exact blameless_output cause

theorem blameless_of_telling (h : Telling r xs result) : Blameless result := by
  cases h with
  | memberless hpeers => exact blameless_noReachablePeer _ _
  | unanswered hpeers failure => exact blameless_internal failure
  | declined hpeers info written hreply => exact blameless_rejection _ info.reply written
  | told hpeers info hreply hwriting => exact (blameless_of_writing hwriting).map _

/-- A connection that is refused is no mistake of the operator either. -/
theorem blameless_of_connected {group : Group} {body : List Turn → Except AdminError Int → Prop}
    (hbody : ∀ {ys}, body ys result → Blameless result) (h : Connected group body xs result) :
    Blameless result := by
  rcases h with ⟨failure, -, rfl⟩ | ⟨ys, hys, -⟩
  · exact blameless_internal failure
  · exact hbody hys

/-- Whatever goes wrong with an errand is no mistake of the operator. -/
theorem blameless_of_doing {errand : Errand} (h : Doing r errand xs result) :
    Blameless result := by
  cases h with
  | unshown cause => exact blameless_output cause
  | inspect hconnected => exact blameless_of_connected blameless_of_telling hconnected
  | stranger target settle timeout hnone =>
    simp [Blameless, notInQuorum, AdminError.isMistake_iff, AdminError.Malformed]
  | lead target settle timeout hmember hconnected =>
    exact blameless_of_connected blameless_of_handingOver hconnected
  | submit errand context events hchanges hpeers hconnected =>
    exact blameless_of_connected blameless_of_submitting hconnected

end

/-! ### Commands -/

variable {command : Command} {conf : Configuration}

/-- What is found out without asking anybody is a mistake of the operator. -/
theorem malformed_of_validate (h : command.validate = .error e) : e.Malformed := by
  unfold Command.validate at h
  split at h
  · next e' hgroup =>
    obtain rfl := Except.error.inj h
    unfold GroupRequest.validate at hgroup
    split at hgroup
    · obtain rfl := Except.error.inj hgroup
      trivial
    · cases hgroup
  · split at h
    · next address? _ =>
      cases htarget : readTarget address? with
      | ok target =>
        rw [htarget] at h
        cases h
      | error e' =>
        rw [htarget] at h
        obtain rfl := Except.error.inj h
        exact malformed_of_readTarget htarget
    · cases h

theorem notes_of_errand {us : List Turn} {task : Task} {read : Except AdminError Errand}
    (h : Path (task.errand conf).run us read) : ∀ u ∈ us, u.action.Notes :=
  (only_errand (fun _ => trivial) conf task).of_path h

/-- Before a command tries to connect to anybody it fails by something malformed, or because a list
option is given nothing but blanks, and afterwards by no mistake of the operator. -/
theorem blame_of_path {result : Except AdminError Int}
    (h : Path (command.act conf).run xs result) :
    (∃ e, result = .error e ∧ (∀ x ∈ xs, x.action.connects = false) ∧
      (e.Malformed ∨ command.task.ChangesMembers ∧ command.task.Blank ∧
        ∃ option, e = .missingInput option)) ∨
      Blameless result ∧ ∃ x ∈ xs, x.action.connects := by
  have herrand : ∀ {us read}, Path (command.task.errand conf).run us read →
      ∀ u ∈ us, u.action.connects = false := fun h u hu =>
    (notes_of_errand h u hu).not_connects
  rw [act_eq] at h
  rcases Script.path_act_bind_iff.mp h with ⟨us, errand, vs, hread, hv, rfl⟩ | ⟨e, hread, rfl⟩
  · rcases Script.path_act_bind_iff.mp hv with ⟨ys, r, zs, hresolve, hrun, rfl⟩ | ⟨e, hresolve, rfl⟩
    · rcases Resolution.path_resolve_gather hresolve with
        ⟨e, -, ⟨⟩, -⟩ | ⟨seed, candidates, ws, gs, -, -, hgather, rfl⟩
      obtain ⟨x, hx, hconnects⟩ := connects_of_gather hgather
      exact .inr ⟨blameless_of_doing (doing_of_path hrun), x, by simp [hx], hconnects⟩
    · rcases Resolution.path_resolve_gather hresolve with
        ⟨e', hplan, hsame, hnotes⟩ | ⟨seed, candidates, ws, gs, -, -, hgather, rfl⟩
      · obtain rfl := Except.error.inj hsame
        refine .inl ⟨e, rfl, ?_, .inl (malformed_of_plan hplan)⟩
        exact List.forall_mem_append.mpr ⟨herrand hread, fun x hx => (hnotes x hx).not_connects⟩
      · obtain ⟨x, hx, hconnects⟩ := connects_of_gather hgather
        have hblameless := blameless_of_gather hgather
        exact .inr ⟨hblameless, x, by simp [hx], hconnects⟩
  · exact .inl ⟨e, rfl, herrand hread, error_of_errand hread⟩

/-- A command that is refused does not try to connect to anybody. -/
theorem unconnected_of_validate {code : Int} (h : command.validate = .error e)
    (hpath : Path (Shell.execute conf command) xs code) : ∀ x ∈ xs, x.action.connects = false := by
  unfold Shell.execute at hpath
  rw [h] at hpath
  obtain ⟨why, how, what, -, rfl⟩ := path_refuse hpath
  simp [Turn.line, Action.connects]

/-- **Mistakes of the operator never reach the cluster.** A command that is refused is refused for a
mistake of the operator, and connects to nobody. Whatever the connector and its clients reply, and
whatever becomes of what is written, the error of a command that is run is a mistake of the operator
exactly if the command has not tried to connect to anybody. -/
theorem isMistake_iff_unconnected {σ : Type} (w : Script.World σ) (conf : Configuration)
    (command : Command) (s : σ) :
    (∀ e, command.validate = .error e →
      e.IsMistake ∧ ∀ x ∈ (Shell.execute conf command).turns w s, x.action.connects = false) ∧
    ∀ e, ((command.act conf).run.run w s).1 = .error e →
      (e.IsMistake ↔ ∀ x ∈ (command.act conf).run.turns w s, x.action.connects = false) := by
  constructor
  · intro e hvalidate
    have hpath := Script.path_run w (Shell.execute conf command) s
    exact ⟨(malformed_of_validate hvalidate).isMistake, unconnected_of_validate hvalidate hpath⟩
  · intro e he
    have hpath := Script.path_run w (command.act conf).run s
    rw [he] at hpath
    rcases blame_of_path hpath with ⟨e', hsame, hnone, hmistake⟩ | ⟨hblameless, x, hx, hconnects⟩
    · obtain rfl := Except.error.inj hsame
      have hoption : e.Malformed ∨ ∃ option, e = .missingInput option :=
        hmistake.imp_right fun ⟨_, _, hoption⟩ => hoption
      exact iff_of_true (AdminError.isMistake_iff.mpr hoption) hnone
    · refine iff_of_false hblameless fun hnone => ?_
      rw [hnone x hx] at hconnects
      cases hconnects

/-- That an address has no port is found out before anybody is asked. That no candidate is in a
group is found out by asking. -/
theorem isMistake_iff_unconnected_empty :
    let w := Session.world Cluster.connector
    let s : Session Cluster := .start .empty .empty none
    let malformed : Command := ⟨.quorumAdd ["h2"], ⟨some "h1:9870", none, none⟩⟩
    let groupless : Command := ⟨.info, ⟨some "h1:9870", none, none⟩⟩
    (∀ x ∈ (malformed.act .empty).run.turns w s, x.action.connects = false) ∧
      ¬ ∀ x ∈ (groupless.act .empty).run.turns w s, x.action.connects = false := by
  intro w s malformed groupless
  have hmalformed : ((malformed.act .empty).run.run w s).1
      = .error (.invalidAddress "h2" "expected HOST:PORT") := by
    rfl
  have hgroupless : ((groupless.act .empty).run.run w s).1
      = .error (.noReachablePeer "list groups" ["h1:9870"]) := by
    rfl
  constructor
  · refine ((isMistake_iff_unconnected w .empty malformed s).2 _ hmalformed).mp ?_
    exact AdminError.Malformed.isMistake trivial
  · rw [← (isMistake_iff_unconnected w .empty groupless s).2 _ hgroupless]
    exact blameless_noReachablePeer (α := Int) _ _

end RaftAdmin
