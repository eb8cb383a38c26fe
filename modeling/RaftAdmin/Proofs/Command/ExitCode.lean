import RaftAdmin.Cluster.Basic
import RaftAdmin.Proofs.Command.Discipline
import RaftAdmin.Proofs.Script.Reply

/-!
# What the exit code says

Scripts go by the exit code of a command. As long as the operator's stream takes what is written,
this code tells whether the cluster did what the command asked it for.

## What is proved

* `doing_ok_iff` — an errand succeeds exactly if all that it asked for was accepted.
* **`execute_exitOk_iff`** — a command ends with exit code 0 exactly if the members that it
  submitted were accepted, the transfer that it asked for was accepted, or the member that it asked
  about the group answered, whichever of these it is for.
-/

namespace RaftAdmin

open Script (Path)

/-- A turn in which members are submitted and accepted. -/
def Turn.Accepts : Turn → Prop
  | ⟨.setConfiguration _ _, .ok reply⟩ => reply.success = true
  | _ => False

/-- A turn in which a transfer of leadership is asked for and accepted. -/
def Turn.Yields : Turn → Prop
  | ⟨.transferLeadership _ _ _, .ok reply⟩ => reply.success = true
  | _ => False

/-- A turn in which the first member of a resolved group is asked about it and answers. -/
def Turn.Tells (r : ResolvedGroup) : Turn → Prop
  | ⟨.groupInfo group p id, .ok info⟩ =>
    group = r.contactGroup ∧ r.group.peers.head? = some p ∧ id = r.group.id ∧
      info.reply.success = true
  | _ => False

variable {r : ResolvedGroup} {errand : Errand} {xs : List Turn} {result : Except AdminError Int}

theorem AdminError.exitCode_ne (e : AdminError) : e.exitCode ≠ exitOk := by
  cases e <;> simp [exitCode, exitMissingInput, exitError, exitOk]

theorem exitError_ne : exitError ≠ exitOk := by decide

/-- A line is written if everything is. -/
theorem ok_of_line_mem {fragments : List String} {written : Except String Unit}
    (hwritten : ∀ x ∈ xs, ¬ x.Unwritten) (h : Turn.line fragments written ∈ xs) :
    written = .ok () := by
  cases written with
  | ok => rfl
  | error cause => exact (hwritten _ h trivial).elim

/-! ### Errands -/

theorem submitting_ok_iff {peers : List Peer} {context : String}
    (h : Submitting r peers context xs result) (hwritten : ∀ x ∈ xs, ¬ x.Unwritten) :
    result = .ok exitOk ↔ ∃ x ∈ xs, x.Accepts := by
  cases h with
  | unanswered failure => simp [Turn.Accepts]
  | declined reply written hreply => simp [Turn.Accepts, rejectionLine, Turn.line, hreply]
  | accepted reply written hreply =>
    obtain rfl := ok_of_line_mem hwritten (.tail _ (.head _))
    simp [Turn.Accepts, told, hreply]

/-- Over a connection, and after some events are reported. -/
theorem submitted_ok_iff {peers : List Peer} {context : String} (events : List LogEvent)
    (h : Connected r.contactGroup (Submitting r peers context) xs result)
    (hwritten : ∀ x ∈ xs, ¬ x.Unwritten) :
    result = .ok exitOk ↔
      ∃ x ∈ events.map (fun event => (⟨.log event, ()⟩ : Turn)) ++ xs, x.Accepts := by
  rcases h with ⟨failure, rfl, rfl⟩ | ⟨ys, hsubmitting, rfl⟩
  · simp [Turn.Accepts]
  · rw [submitting_ok_iff hsubmitting fun y hy => hwritten y (by simp [hy])]
    simp [Turn.Accepts, or_and_right, exists_or]

theorem transferring_ok_iff {group : Group} {id : PeerId} {timeout : Nat}
    (h : Transferring group id timeout xs result) (hwritten : ∀ x ∈ xs, ¬ x.Unwritten) :
    result = .ok exitOk ↔ ∃ x ∈ xs, x.Yields := by
  cases h with
  | unanswered failure written =>
    obtain rfl := ok_of_line_mem hwritten (.tail _ (.tail _ (.head _)))
    simp [Turn.Yields, Turn.line, told, exitError_ne]
  | declined reply shown written hreply =>
    obtain rfl := ok_of_line_mem hwritten (.tail _ (.tail _ (.tail _ (.head _))))
    simp [Turn.Yields, rejectionLine, Turn.line, told, hreply, exitError_ne]
  | accepted reply written hreply =>
    obtain rfl := ok_of_line_mem hwritten (.tail _ (.tail _ (.head _)))
    simp [Turn.Yields, told, hreply]

theorem handingOver_ok_iff {member : Peer} {settle timeout : Nat}
    (h : HandingOver r member settle timeout xs result) (hwritten : ∀ x ∈ xs, ¬ x.Unwritten) :
    result = .ok exitOk ↔ (∃ x ∈ xs, x.Accepts) ∧ ∃ x ∈ xs, x.Yields := by
  cases h with
  | unannounced cause => simp [preferenceLine, Turn.line, Turn.Yields]
  | unanswered failure => simp [preferenceLine, Turn.line, Turn.Yields]
  | declined reply written hreply => simp [preferenceLine, rejectionLine, Turn.line, Turn.Yields]
  | untold reply cause hreply => simp [preferenceLine, transferLine, Turn.line, Turn.Yields]
  | asked reply hreply htransferring =>
    rw [transferring_ok_iff htransferring fun y hy => hwritten y (List.mem_append_right _ hy)]
    simp [preferenceLine, transferLine, Turn.line, Turn.Accepts, Turn.Yields, hreply]

theorem writing_eq_ok {lines : List (List String)} {shown : Except AdminError Unit}
    (h : Writing lines xs shown) (hwritten : ∀ x ∈ xs, ¬ x.Unwritten) : shown = .ok () := by
  induction h with
  | done => rfl
  | next line _ ih => exact ih fun x hx => hwritten x (List.mem_cons_of_mem _ hx)
  | broken line lines cause => exact (hwritten _ List.mem_cons_self trivial).elim

theorem telling_ok_iff (h : Telling r xs result) (hwritten : ∀ x ∈ xs, ¬ x.Unwritten) :
    result = .ok exitOk ↔ ∃ x ∈ xs, x.Tells r := by
  cases h with
  | memberless hpeers => simp
  | unanswered hpeers failure => simp [Turn.Tells]
  | declined hpeers info written hreply => simp [Turn.Tells, rejectionLine, Turn.line, hreply]
  | told hpeers info hreply hwriting =>
    obtain rfl := writing_eq_ok hwriting fun y hy => hwritten y (List.mem_cons_of_mem _ hy)
    simp [Turn.Tells, Except.map, hpeers, hreply]

/-- An errand with a group succeeds exactly if what it asked for was accepted. -/
theorem doing_ok_iff (h : Doing r errand xs result) (hwritten : ∀ x ∈ xs, ¬ x.Unwritten) :
    result = .ok exitOk ↔
      match errand with
      | .inspect => ∃ x ∈ xs, x.Tells r
      | .lead _ _ _ => (∃ x ∈ xs, x.Accepts) ∧ ∃ x ∈ xs, x.Yields
      | _ => ∃ x ∈ xs, x.Accepts := by
  cases h with
  | unshown cause => exact (hwritten _ (.head _) trivial).elim
  | inspect hconnected =>
    rcases hconnected with ⟨failure, rfl, rfl⟩ | ⟨ys, htelling, rfl⟩
    · simp [Turn.Tells, Turn.line]
    · rw [telling_ok_iff htelling fun y hy => hwritten y (by simp [hy])]
      simp [Turn.Tells, Turn.line]
  | stranger target settle timeout hnone => simp
  | lead target settle timeout hmember hconnected =>
    rcases hconnected with ⟨failure, rfl, rfl⟩ | ⟨ys, hhanding, rfl⟩
    · simp [Turn.Accepts]
    · rw [handingOver_ok_iff hhanding fun y hy => hwritten y (by simp [hy])]
      simp [Turn.Accepts, Turn.Yields]
  | submit errand context events hchanges hpeers hconnected =>
    have haccepts := submitted_ok_iff events hconnected
      fun y hy => hwritten y (List.mem_append_right _ hy)
    cases errand with
    | inspect => exact hchanges.elim
    | lead target settle timeout => exact hchanges.elim
    | _ => exact haccepts

/-- The first member is asked over a connection to its group. -/
theorem connected_of_tells {x : Turn} (h : Doing r .inspect xs result) (hx : x ∈ xs)
    (htells : x.Tells r) :
    ∃ said talk, xs = said ++ ⟨.connect r.contactGroup, .ok ()⟩ :: talk ∧ x ∈ talk := by
  cases h with
  | unshown cause =>
    obtain rfl := List.mem_singleton.mp hx
    exact htells.elim
  | inspect hconnected =>
    rcases List.mem_cons.mp hx with rfl | hx
    · exact htells.elim
    rcases hconnected with ⟨failure, rfl, rfl⟩ | ⟨ys, -, rfl⟩
    · obtain rfl := List.mem_singleton.mp hx
      exact htells.elim
    · rcases List.mem_cons.mp hx with rfl | hx
      · exact htells.elim
      · exact ⟨[_], _, rfl, hx⟩
  | submit errand context events hchanges => exact hchanges.elim

/-! ### Commands -/

section

variable {conf : Configuration} {command : Command} {code : Int}

theorem exitOk_iff_of_reporting {tail : List Turn} (h : Reporting command result tail code) :
    code = exitOk ↔ result = .ok exitOk := by
  cases h with
  | finished code => simp
  | failed e written => simp [e.exitCode_ne]

/-- After its group is resolved, the command connects to it again, and over this connection the
first member is asked about the group and answers. -/
def Command.Told (command : Command) (conf : Configuration) (xs : List Turn) : Prop :=
  ∃ errand r said talk,
    command.Resolves conf xs errand r (said ++ ⟨.connect r.contactGroup, .ok ()⟩ :: talk) ∧
      ∃ x ∈ talk, x.Tells r

/-- A command that is refused or fails early asks for no change and fails; else the errand decides
how it ends. -/
theorem ended_of_course (h : Course command conf xs code) :
    (code ≠ exitOk ∧ ∀ x ∈ xs, x.action.Asks) ∨
      ∃ errand r us zs tail result, errand.Serves command.task ∧
        command.Resolves conf xs errand r (zs ++ tail) ∧ Doing r errand zs result ∧
        (code = exitOk ↔ result = .ok exitOk) ∧ (∀ u ∈ us, u.action.Asks) ∧
        (∀ x ∈ tail, x.action.Asks) ∧ xs = us ++ (zs ++ tail) := by
  cases h with
  | refused e hrefused why how what => exact .inl ⟨e.exitCode_ne, by simp [Turn.line, Action.Asks]⟩
  | unresolved e hys written =>
    refine .inl ⟨e.exitCode_ne, List.forall_mem_cons.mpr ⟨trivial, ?_⟩⟩
    exact List.forall_mem_append.mpr ⟨fun y hy => (hys y hy).asks, by simp [Turn.line, Action.Asks]⟩
  | resolved hresolves hdoing hreporting =>
    obtain ⟨hserves, us, hus, rfl, -⟩ := exists_of_resolves hresolves
    exact .inr ⟨_, _, us, _, _, _, hserves, hresolves, hdoing, exitOk_iff_of_reporting hreporting,
      fun u hu => (hus u hu).asks, asks_of_reporting hreporting, rfl⟩

/-- A command that succeeds has resolved its group. -/
theorem exists_resolves_of_exitOk (h : Path (Shell.execute conf command) xs exitOk) :
    ∃ errand r zs, command.Resolves conf xs errand r zs := by
  rcases ended_of_course (course_of_path h) with
    ⟨hcode, -⟩ | ⟨errand, r, us, zs, tail, result, -, hresolves, -⟩
  · exact absurd rfl hcode
  · exact ⟨errand, r, zs ++ tail, hresolves⟩

theorem Turn.Accepts.not_asks {x : Turn} (h : x.Accepts) : ¬ x.action.Asks := by
  obtain ⟨action, reply⟩ := x
  cases action with
  | setConfiguration group peers => exact id
  | _ => exact h.elim

theorem Turn.Yields.not_asks {x : Turn} (h : x.Yields) : ¬ x.action.Asks := by
  obtain ⟨action, reply⟩ := x
  cases action with
  | transferLeadership group target timeout => exact id
  | _ => exact h.elim

/-- What involves a change is in the errand of a command, and neither before it nor after. -/
theorem exists_errand_iff {P : Turn → Prop} {us zs tail : List Turn}
    (hP : ∀ x, P x → ¬ x.action.Asks) (hus : ∀ u ∈ us, u.action.Asks)
    (htail : ∀ x ∈ tail, x.action.Asks) :
    (∃ x ∈ us ++ (zs ++ tail), P x) ↔ ∃ x ∈ zs, P x := by
  constructor
  · rintro ⟨x, hx, hPx⟩
    rcases List.mem_append.mp hx with hx | hx
    · exact (hP x hPx (hus x hx)).elim
    · rcases List.mem_append.mp hx with hx | hx
      · exact ⟨x, hx, hPx⟩
      · exact (hP x hPx (htail x hx)).elim
  · rintro ⟨x, hx, hPx⟩
    exact ⟨x, List.mem_append_right _ (List.mem_append_left _ hx), hPx⟩

/-- If only one turn involves a change, it decides. -/
theorem exists_change_iff {P : Turn → Prop} {us vs : List Turn} {x : Turn}
    (hP : ∀ x, P x → ¬ x.action.Asks) (hus : ∀ u ∈ us, u.action.Asks)
    (hvs : ∀ v ∈ vs, v.action.Asks) : (∃ y ∈ us ++ x :: vs, P y) ↔ P x := by
  have herrand : (∃ y ∈ us ++ ([x] ++ vs), P y) ↔ ∃ y ∈ [x], P y := exists_errand_iff hP hus hvs
  simpa using herrand

/-- When a command for members succeeds. -/
theorem exitOk_iff_accepts (hpath : Path (Shell.execute conf command) xs code)
    (hwritten : ∀ x ∈ xs, ¬ x.Unwritten)
    (htask : command.task.ChangesMembers) :
    code = exitOk ↔ ∃ x ∈ xs, x.Accepts := by
  rcases ended_of_course (course_of_path hpath) with ⟨hcode, hasks⟩ |
    ⟨errand, r, us, zs, tail, result, hserves, -, hdoing, hcode, hus, htail, rfl⟩
  · exact iff_of_false hcode fun ⟨x, hx, haccepts⟩ => haccepts.not_asks (hasks x hx)
  · have hzs := doing_ok_iff hdoing fun z hz => hwritten z (by simp [hz])
    rw [hcode, hzs, exists_errand_iff (fun _ => Turn.Accepts.not_asks) hus htail]
    have hchanges := hserves.changesMembers htask
    cases errand with
    | inspect => exact hchanges.elim
    | lead target settle timeout => exact hchanges.elim
    | _ => exact .rfl

/-- When a command for leadership succeeds. -/
theorem exitOk_iff_yields (hpath : Path (Shell.execute conf command) xs code)
    (hwritten : ∀ x ∈ xs, ¬ x.Unwritten) {address? : Option String}
    (htask : command.task = .elect address?) :
    code = exitOk ↔ (∃ x ∈ xs, x.Accepts) ∧ ∃ x ∈ xs, x.Yields := by
  rcases ended_of_course (course_of_path hpath) with ⟨hcode, hasks⟩ |
    ⟨errand, r, us, zs, tail, result, hserves, -, hdoing, hcode, hus, htail, rfl⟩
  · exact iff_of_false hcode fun ⟨⟨x, hx, haccepts⟩, _⟩ => haccepts.not_asks (hasks x hx)
  · have hzs := doing_ok_iff hdoing fun z hz => hwritten z (by simp [hz])
    rw [hcode, hzs, exists_errand_iff (fun _ => Turn.Accepts.not_asks) hus htail,
      exists_errand_iff (fun _ => Turn.Yields.not_asks) hus htail]
    rw [htask] at hserves
    cases errand with
    | lead target settle timeout => exact .rfl
    | _ => exact hserves.elim

theorem not_tells_of_reporting {tail : List Turn} (h : Reporting command result tail code)
    {x : Turn} (hx : x ∈ tail) : ¬ x.Tells r := by
  cases h with
  | finished code => cases hx
  | failed e written =>
    rcases List.mem_cons.mp hx with rfl | hx
    · exact id
    · obtain rfl := List.mem_singleton.mp hx
      exact id

/-- When a command that shows a group succeeds. -/
theorem exitOk_iff_told (hpath : Path (Shell.execute conf command) xs code)
    (hwritten : ∀ x ∈ xs, ¬ x.Unwritten) (htask : command.task = .info) :
    code = exitOk ↔ command.Told conf xs := by
  constructor
  · intro hok
    rcases ended_of_course (course_of_path hpath) with ⟨hcode, -⟩ |
      ⟨errand, r, us, zs, tail, result, hserves, hresolves, hdoing, hcode, -, -, rfl⟩
    · exact absurd hok hcode
    · obtain rfl := (htask ▸ hserves).eq_inspect
      have hzs := doing_ok_iff hdoing fun z hz => hwritten z (by simp [hz])
      obtain ⟨x, hx, htells⟩ := hzs.mp (hcode.mp hok)
      obtain ⟨said, talk, rfl, htalk⟩ := connected_of_tells hdoing hx htells
      refine ⟨.inspect, r, said, talk ++ tail, by simpa using hresolves, x, ?_, htells⟩
      exact List.mem_append_left _ htalk
  · rintro ⟨errand, r, said, talk, hresolves, x, hx, htells⟩
    obtain ⟨us, result, tail, hdoing, hreporting, hsame⟩ := doing_of_resolves hpath hresolves
    obtain ⟨hserves, before, -, rfl, -⟩ := exists_of_resolves hresolves
    obtain rfl := (htask ▸ hserves).eq_inspect
    have hus : x ∈ us := by
      have hmem : x ∈ us ++ tail := hsame ▸ by simp [hx]
      exact (List.mem_append.mp hmem).resolve_right
        fun htail => not_tells_of_reporting hreporting htail htells
    rw [exitOk_iff_of_reporting hreporting]
    refine (doing_ok_iff hdoing fun u hu => hwritten u ?_).mpr ⟨x, hus, htells⟩
    rw [hsame]
    simp [hu]

/-- **What the exit code says.** Whoever replies, and as long as the operator's stream takes what is
written, a command for members ends with exit code 0 exactly if members were submitted and accepted,
a command for leadership exactly if members and a transfer were, and a command that shows a group
exactly if the first member of the resolved group was asked about it over the second connection, and
answered. -/
theorem execute_exitOk_iff {σ : Type} (w : Script.World σ) (conf : Configuration)
    (command : Command) (s : σ)
    (hwritten : ∀ x ∈ (Shell.execute conf command).turns w s, ¬ x.Unwritten) :
    let xs := (Shell.execute conf command).turns w s
    ((Shell.execute conf command).run w s).1 = exitOk ↔
      match command.task with
      | .info => command.Told conf xs
      | .elect _ => (∃ x ∈ xs, x.Accepts) ∧ ∃ x ∈ xs, x.Yields
      | _ => ∃ x ∈ xs, x.Accepts := by
  have hpath := Script.path_run w (Shell.execute conf command) s
  intro xs
  cases htask : command.task with
  | info => exact exitOk_iff_told hpath hwritten htask
  | elect address? => exact exitOk_iff_yields hpath hwritten htask
  | _ => exact exitOk_iff_accepts hpath hwritten (by rw [htask]; trivial)

/-- A group of one member, which can be reached. -/
def lone : Cluster := Cluster.empty.addGroup (.of .bootstrap [.ofAddress ⟨"h1", 9870⟩]) none

/-- Adding a peer to it succeeds, so the members that were submitted were accepted. -/
theorem execute_exitOk_iff_lone :
    let command : Command := ⟨.quorumAdd ["h2:9870"], ⟨some "h1:9870", none, none⟩⟩
    let s : Session Cluster := .start lone .empty none
    (Session.run Cluster.connector (Shell.execute .empty command) s).1 = exitOk ∧
      ∃ x ∈ (Shell.execute .empty command).turns (Session.world Cluster.connector) s,
        x.Accepts := by
  intro command s
  have hcode : (Session.run Cluster.connector (Shell.execute .empty command) s).1 = exitOk := by
    rfl
  have hwritten := Session.written_of_unlimited
    (Script.replies_run (Session.world Cluster.connector) (Shell.execute .empty command) s) rfl
  exact ⟨hcode, (execute_exitOk_iff _ .empty command s hwritten).mp hcode⟩

end

end RaftAdmin
