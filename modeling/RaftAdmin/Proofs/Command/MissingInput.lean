import RaftAdmin.Proofs.Command.Mistake

/-!
# The exit code for no values

Scripts go by the exit codes of commands, and one of these is kept for a single mistake: a list
option is given, but no values are given to it.

## What is proved

* `missingInput_iff` — a command that is run fails for want of values exactly if it has a list
  option, and all parts of its values are blank.
* `code_of_doing` — what is done with a resolved group ends with one of the usual two exit codes.
* **`execute_exitMissingInput_iff`** — a command ends with the exit code -2 exactly if it is a
  command for members, some group is named, and all parts of its values are blank; and then it has
  not tried to connect to anybody.
-/

namespace RaftAdmin

open Script (Path)

variable {xs : List Turn} {e : AdminError} {command : Command} {conf : Configuration}
  {code : Int}

/-! ### Errors -/

theorem exitCode_eq_exitMissingInput_iff :
    e.exitCode = exitMissingInput ↔ ∃ option, e = .missingInput option := by
  cases e <;> simp [AdminError.exitCode, exitMissingInput, exitError]

/-- Something malformed has another exit code. -/
theorem AdminError.Malformed.exitCode_ne (h : e.Malformed) : e.exitCode ≠ exitMissingInput := by
  intro hcode
  obtain ⟨option, rfl⟩ := exitCode_eq_exitMissingInput_iff.mp hcode
  exact h

theorem not_blameless_missingInput {α : Type} (option : String) :
    ¬ Blameless (.error (.missingInput option) : Except AdminError α) := by
  intro h
  exact h (AdminError.isMistake_iff.mpr (.inr ⟨option, rfl⟩))

/-! ### Errands -/

section

variable {r : ResolvedGroup} {result : Except AdminError Int}

theorem eq_of_told {code' : Int} {written : Except String Unit}
    (h : told code' written = .ok code) : code = code' := by
  cases written with
  | ok => exact (Except.ok.inj h).symm
  | error cause => cases h

/-- Over a connection an errand ends as it would end without. -/
theorem of_connected {group : Group} {body : List Turn → Except AdminError Int → Prop}
    (h : Connected group body xs (.ok code)) : ∃ ys, body ys (.ok code) := by
  rcases h with ⟨failure, -, ⟨⟩⟩ | ⟨ys, hys, -⟩
  exact ⟨ys, hys⟩

theorem code_of_submitting {peers : List Peer} {context : String}
    (h : Submitting r peers context xs (.ok code)) : code = exitOk := by
  generalize hresult : (Except.ok code : Except AdminError Int) = result at h
  cases h with
  | unanswered failure => cases hresult
  | declined reply written hreply => cases hresult
  | accepted reply written hreply => exact eq_of_told hresult.symm

theorem code_of_transferring {group : Group} {id : PeerId} {timeout : Nat}
    (h : Transferring group id timeout xs (.ok code)) : code = exitOk ∨ code = exitError := by
  generalize hresult : (Except.ok code : Except AdminError Int) = result at h
  cases h with
  | unanswered failure written => exact .inr (eq_of_told hresult.symm)
  | declined reply shown written hreply => exact .inr (eq_of_told hresult.symm)
  | accepted reply written hreply => exact .inl (eq_of_told hresult.symm)

theorem code_of_handingOver {member : Peer} {settle timeout : Nat}
    (h : HandingOver r member settle timeout xs (.ok code)) : code = exitOk ∨ code = exitError := by
  cases h with
  | asked reply hreply htransferring => exact code_of_transferring htransferring

theorem code_of_telling (h : Telling r xs (.ok code)) : code = exitOk := by
  generalize hresult : (Except.ok code : Except AdminError Int) = result at h
  cases h with
  | memberless hpeers => cases hresult
  | unanswered hpeers failure => cases hresult
  | declined hpeers info written hreply => cases hresult
  | told hpeers info hreply hwriting =>
    rename_i shown
    cases shown with
    | error e => cases hresult
    | ok => exact Except.ok.inj hresult

/-- An errand that ends with an exit code ends with one of the usual two. -/
theorem code_of_doing {errand : Errand} (h : Doing r errand xs (.ok code)) :
    code = exitOk ∨ code = exitError := by
  cases h with
  | inspect hconnected =>
    obtain ⟨ys, htelling⟩ := of_connected hconnected
    exact .inl (code_of_telling htelling)
  | lead target settle timeout hmember hconnected =>
    obtain ⟨ys, hhanding⟩ := of_connected hconnected
    exact code_of_handingOver hhanding
  | submit errand context events hchanges hpeers hconnected =>
    obtain ⟨ys, hsubmitting⟩ := of_connected hconnected
    exact .inl (code_of_submitting hsubmitting)

end

/-! ### Commands -/

theorem code_of_act (h : Path (command.act conf).run xs (.ok code)) :
    code = exitOk ∨ code = exitError := by
  rw [act_eq] at h
  rcases Script.path_act_bind_iff.mp h with ⟨_, errand, _, -, hrest, -⟩ | ⟨e, -, ⟨⟩⟩
  rcases Script.path_act_bind_iff.mp hrest with ⟨_, r, _, -, hrun, -⟩ | ⟨e, -, ⟨⟩⟩
  exact code_of_doing (doing_of_path hrun)

/-- A command fails for want of values exactly if it has a list option, and all parts of its values
are blank. -/
theorem missingInput_iff {result : Except AdminError Int}
    (h : Path (command.act conf).run xs result) :
    (∃ option, result = .error (.missingInput option)) ↔
      command.task.ChangesMembers ∧ command.task.Blank := by
  constructor
  · rintro ⟨option, rfl⟩
    rcases blame_of_path h with
      ⟨e, hsame, -, hmalformed | ⟨htask, hblank, -⟩⟩ | ⟨hblameless, -⟩
    · obtain rfl := Except.error.inj hsame
      exact hmalformed.elim
    · exact ⟨htask, hblank⟩
    · exact (not_blameless_missingInput option hblameless).elim
  · rintro ⟨htask, hblank⟩
    rw [act_eq] at h
    rcases Script.path_act_bind_iff.mp h with ⟨us, errand, _, hread, -⟩ | ⟨e, hread, rfl⟩
    · obtain ⟨-, option, hoption⟩ := errand_of_blank htask hblank hread
      cases hoption
    · obtain ⟨-, option, hoption⟩ := errand_of_blank htask hblank hread
      obtain rfl := Except.error.inj hoption
      exact ⟨option, rfl⟩

/-- A command is refused with another exit code. -/
theorem exitCode_ne_of_refuse (h : command.validate = .error e)
    (hpath : Path (Shell.refuse command e) xs code) : code ≠ exitMissingInput := by
  obtain ⟨why, how, what, rfl, -⟩ := path_refuse hpath
  exact (malformed_of_validate h).exitCode_ne

/-- A command for members is run as soon as some group is named. -/
theorem validate_eq_ok_iff (h : command.task.ChangesMembers) :
    command.validate = .ok () ↔ command.group.peers? ≠ none ∨ command.group.serviceId? ≠ none := by
  obtain ⟨task, request⟩ := command
  cases task with
  | info => exact h.elim
  | elect address? => exact h.elim
  | _ =>
    cases hpeers : request.peers? <;> cases hservice : request.serviceId? <;>
      simp [Command.validate, GroupRequest.validate, hpeers, hservice]

/-- Only a command that is not refused is reported to run. -/
theorem validate_of_running {ys : List Turn}
    (h : Path (Shell.execute conf command) (⟨.log (Shell.running command), ()⟩ :: ys) code) :
    command.validate = .ok () := by
  cases hvalidate : command.validate with
  | ok => rfl
  | error e =>
    unfold Shell.execute at h
    rw [hvalidate] at h
    obtain ⟨why, how, what, -, hsame⟩ := path_refuse h
    cases (List.cons.inj hsame).1

/-- The exit code says how a run ended. -/
theorem exitMissingInput_iff_of_reporting {result : Except AdminError Int} {tail : List Turn}
    (hact : Path (command.act conf).run xs result) (h : Reporting command result tail code) :
    code = exitMissingInput ↔ ∃ option, result = .error (.missingInput option) := by
  cases h with
  | finished code =>
    have hcode := code_of_act hact
    simp only [reduceCtorEq, exists_const, iff_false]
    rintro rfl
    rcases hcode with hcode | hcode <;> cases hcode
  | failed e written => simp [exitCode_eq_exitMissingInput_iff]

theorem not_connects_of_reporting {result : Except AdminError Int} {tail : List Turn}
    (h : Reporting command result tail code) : ∀ x ∈ tail, x.action.connects = false := by
  cases h with
  | finished code => simp
  | failed e written => simp [Turn.line, Action.connects]

/-- A run that fails for want of values has not tried to connect to anybody. -/
theorem unconnected_of_missingInput {option : String}
    (h : Path (command.act conf).run xs (.error (.missingInput option))) :
    ∀ x ∈ xs, x.action.connects = false := by
  rcases blame_of_path h with ⟨e, -, hnone, -⟩ | ⟨hblameless, -⟩
  · exact hnone
  · exact (not_blameless_missingInput option hblameless).elim

/-- **The exit code for no values.** Whoever replies, and whatever becomes of what is written, a
command ends with the exit code -2 exactly if it is a command for members, peers or a service are
named, and every part of its values is blank; and then it has not tried to connect to anybody. -/
theorem execute_exitMissingInput_iff {σ : Type} (w : Script.World σ) (conf : Configuration)
    (command : Command) (s : σ) :
    (((Shell.execute conf command).run w s).1 = -2 ↔
      command.task.ChangesMembers ∧
        (command.group.peers? ≠ none ∨ command.group.serviceId? ≠ none) ∧
        ∀ part ∈ command.task.parts, Text.trim part = "") ∧
    (((Shell.execute conf command).run w s).1 = -2 →
      ∀ x ∈ (Shell.execute conf command).turns w s, x.action.connects = false) := by
  change (_ = exitMissingInput ↔ _) ∧ (_ = exitMissingInput → _)
  have hpath := Script.path_run w (Shell.execute conf command) s
  generalize ((Shell.execute conf command).run w s).1 = code at hpath
  generalize (Shell.execute conf command).turns w s = xs at hpath
  rcases path_execute hpath with ⟨e, hvalidate, hrefuse⟩ | ⟨ys, result, tail, hact, hreport, rfl⟩
  · have hcode := exitCode_ne_of_refuse hvalidate hrefuse
    refine ⟨iff_of_false hcode ?_, fun h => (hcode h).elim⟩
    rintro ⟨htask, hnamed, -⟩
    rw [(validate_eq_ok_iff htask).mpr hnamed] at hvalidate
    cases hvalidate
  · have hcode := exitMissingInput_iff_of_reporting hact hreport
    constructor
    · rw [hcode, missingInput_iff hact]
      constructor
      · rintro ⟨htask, hblank⟩
        exact ⟨htask, (validate_eq_ok_iff htask).mp (validate_of_running hpath), hblank⟩
      · rintro ⟨htask, -, hblank⟩
        exact ⟨htask, hblank⟩
    · intro h
      obtain ⟨option, rfl⟩ := hcode.mp h
      refine List.forall_mem_cons.mpr ⟨rfl, List.forall_mem_append.mpr ⟨?_, ?_⟩⟩
      · exact unconnected_of_missingInput hact
      · exact not_connects_of_reporting hreport

/-- Priorities that are nothing but separators and blanks, for a service that is not configured. -/
theorem execute_exitMissingInput_iff_separators :
    let w := Session.world Cluster.connector
    let command : Command := ⟨.setPriority [" ; ", ""], ⟨none, none, some "quorum"⟩⟩
    let s : Session Cluster := .start .empty .empty none
    ((Shell.execute .empty command).run w s).1 = -2 ∧
      ∀ x ∈ (Shell.execute .empty command).turns w s, x.action.connects = false := by
  intro w command s
  have hblank : ∀ part ∈ command.task.parts, Text.trim part = "" := by decide
  obtain ⟨hiff, hunconnected⟩ := execute_exitMissingInput_iff w .empty command s
  have hcode := hiff.mpr ⟨trivial, by decide, hblank⟩
  exact ⟨hcode, hunconnected hcode⟩

end RaftAdmin
