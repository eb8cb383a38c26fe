import RaftAdmin.Proofs.Cluster.Clients
import RaftAdmin.Proofs.Command.ExitCode
import RaftAdmin.Shell.Run

/-!
# Connections that are released

A command opens a connection to the candidates, and one to the group that it has resolved. It closes
each of them however what goes over it ends, and makes no call but over an open one.

## What is proved

* `leaves_resolve`, `leaves_errand` — the two connections of a command, one after the other.
* `leaves_run` — whatever its arguments are, the program closes what it opens.
* **`run_releases`** — over a cluster with any open clients, the program drops none of them and
  leaves none of its own behind, whatever fails.
-/

namespace RaftAdmin

open Script (Only only_perform only_logAll only_answered Leaves)

variable {clients : List Group}

/-! ### What goes over a connection -/

theorem uses_say (fragments : List String) :
    (Act.say fragments).run.Only (Action.Uses clients) := by
  refine Only.act_bind (only_perform trivial) fun reply => ?_
  cases reply <;> exact trivial

theorem uses_checkReply (reply : ClientReply) (context : String) :
    (checkReply reply context).run.Only (Action.Uses clients) := by
  unfold checkReply
  split
  · exact trivial
  · exact Only.act_bind (uses_say _) fun _ => trivial

theorem uses_sayAll (lines : List (List String)) :
    (sayAll lines).run.Only (Action.Uses clients) := by
  induction lines with
  | nil => exact trivial
  | cons line lines ih => exact Only.act_bind (uses_say line) fun _ => ih

/-- The first member is asked over the connection to the resolved group. -/
theorem uses_tellInfo (r : ResolvedGroup) :
    (tellInfo r).run.Only (Action.Uses (r.contactGroup :: clients)) := by
  unfold tellInfo
  split
  · exact trivial
  · next first rest _ =>
    have hcall : Action.Uses (r.contactGroup :: clients)
        (.groupInfo r.contactGroup first r.group.id) := List.mem_cons_self
    refine Only.act_bind (only_perform hcall) fun answer => ?_
    refine Only.act_bind (only_answered answer) fun info => ?_
    refine Only.act_bind (uses_checkReply _ _) fun _ => ?_
    exact Only.act_bind (uses_sayAll _) fun _ => trivial

theorem uses_requestTransfer (group : Group) (target : PeerId) (timeout : Nat) :
    (requestTransfer group target timeout).run.Only (Action.Uses (group :: clients)) := by
  have hcall : Action.Uses (group :: clients) (.transferLeadership group target timeout) :=
    List.mem_cons_self
  refine Only.act_bind (only_perform hcall) fun answer => ?_
  exact Only.act_bind (only_answered answer) fun reply => uses_checkReply _ _

theorem uses_concludeTransfer (id : PeerId) (outcome : Except AdminError Unit) :
    (concludeTransfer id outcome).run.Only (Action.Uses clients) := by
  cases outcome with
  | error e =>
    refine Only.act_bind (only_perform trivial) fun _ => ?_
    exact Only.act_bind (uses_say _) fun _ => trivial
  | ok =>
    refine Only.act_bind (only_perform trivial) fun _ => ?_
    exact Only.act_bind (uses_say _) fun _ => trivial

/-! ### The connections of a command -/

variable {r : ResolvedGroup}

theorem leaves_submitMembers (r : ResolvedGroup) (peers : List Peer) (context : String) :
    (submitMembers r peers context).run.Leaves clients clients := by
  have hcall : Action.Uses (r.contactGroup :: clients) (.setConfiguration r.contactGroup peers) :=
    List.mem_cons_self
  refine Leaves.connected (Only.act_bind (only_perform hcall) fun answer => ?_)
  refine Only.act_bind (only_answered answer) fun reply => ?_
  refine Only.act_bind (uses_checkReply _ _) fun _ => ?_
  exact Only.act_bind (uses_say _) fun _ => trivial

theorem leaves_handOver (r : ResolvedGroup) (member : Peer) (settle timeout : Nat) :
    (handOver r member settle timeout).run.Leaves clients clients := by
  have hcall : Action.Uses (r.contactGroup :: clients)
      (.setConfiguration r.contactGroup (preferring member.id r.group.peers)) :=
    List.mem_cons_self
  refine Leaves.connected (Only.act_bind (uses_say _) fun _ => ?_)
  refine Only.act_bind (only_perform hcall) fun answer => ?_
  refine Only.act_bind (only_answered answer) fun reply => ?_
  refine Only.act_bind (uses_checkReply _ _) fun _ => ?_
  refine Only.act_bind (uses_say _) fun _ => ?_
  refine Only.act_bind (only_perform trivial) fun _ => ?_
  refine Only.act_bind (Only.lift (uses_requestTransfer _ _ _)) fun outcome => ?_
  exact uses_concludeTransfer _ _

/-- An errand closes its connection to the resolved group. -/
theorem leaves_errand (r : ResolvedGroup) (errand : Errand) :
    (errand.run r).run.Leaves clients clients := by
  have hlog : ∀ events : List LogEvent, (Act.logAll events).run.Leaves clients clients :=
    fun events => (only_logAll events fun _ => trivial).leaves
  cases errand with
  | inspect =>
    exact Leaves.act_bind (uses_say _).leaves fun _ => Leaves.connected (uses_tellInfo r)
  | lead target settle timeout =>
    unfold Errand.run
    cases hmember : r.group.peerAt? target with
    | none =>
      simp only [hmember]
      exact rfl
    | some member =>
      simp only [hmember]
      exact leaves_handOver r member settle timeout
  | add addresses => exact Leaves.act_bind (hlog _) fun _ => leaves_submitMembers r _ _
  | remove addresses => exact leaves_submitMembers r _ _
  | rank pairs => exact Leaves.act_bind (hlog _) fun _ => leaves_submitMembers r _ _

theorem Action.Consults.uses {group : Group} {action : Action} (h : action.Consults group) :
    action.Uses (group :: clients) := by
  cases action with
  | listGroups asked peer => exact List.mem_cons.mpr (.inl h)
  | groupInfo asked peer id => exact List.mem_cons.mpr (.inl h)
  | log event => trivial
  | _ => exact h.elim

theorem uses_inquire (candidates : Group) (seed : Seed) :
    (Resolution.inquire candidates seed).run.Only (Action.Uses (candidates :: clients)) :=
  Only.mono (fun _ h => h.uses) Resolution.only_inquire

/-- A resolution closes its connection to the candidates. -/
theorem leaves_resolve (conf : Configuration) (request : GroupRequest) :
    (Resolution.resolve conf request).run.Leaves clients clients := by
  have huses : ∀ {α : Type} {act : Act α}, act.run.Only (Action.Uses clients) →
      act.run.Leaves clients clients := fun h => h.leaves
  unfold Resolution.resolve
  generalize request.addresses conf = read
  obtain ⟨addresses, c⟩ := read
  refine Leaves.act_bind (huses (only_perform trivial)) fun _ => ?_
  refine Leaves.act_bind (huses trivial) fun addresses => ?_
  dsimp only
  generalize request.seed c = read
  obtain ⟨seed, c', events⟩ := read
  refine Leaves.act_bind (huses (only_perform trivial)) fun _ => ?_
  refine Leaves.act_bind (huses (only_logAll events fun _ => trivial)) fun _ => ?_
  refine Leaves.act_bind (huses trivial) fun seed => ?_
  cases hempty : (Resolution.candidateGroup seed addresses).isEmpty with
  | true => exact rfl
  | false =>
    simp only [Bool.false_eq_true, if_false]
    refine Leaves.act_bind (Leaves.connected (uses_inquire _ seed)) fun (id, info) => ?_
    refine Leaves.act_bind (huses (only_logAll _ fun _ => trivial)) fun _ => ?_
    exact Leaves.act_bind (huses (only_perform trivial)) fun _ => rfl

theorem leaves_act (conf : Configuration) (command : Command) :
    (command.act conf).run.Leaves clients clients := by
  rw [act_eq]
  refine Leaves.act_bind (only_errand (fun _ => trivial) conf command.task).leaves fun errand => ?_
  exact Leaves.act_bind (leaves_resolve _ _) fun r => leaves_errand r errand

theorem uses_mention (fragments : List String) :
    (Script.mention fragments).Only (Action.Uses clients) :=
  (Script.only_call trivial).bind fun _ => trivial

/-- A command closes what it opens, whether it is refused, fails or succeeds. -/
theorem leaves_execute (conf : Configuration) (command : Command) :
    (Shell.execute conf command).Leaves clients clients := by
  unfold Shell.execute
  cases command.validate with
  | error e =>
    refine Only.leaves ((uses_mention _).bind fun _ => (uses_mention _).bind fun _ => ?_)
    exact (uses_mention _).bind fun _ => trivial
  | ok =>
    refine Leaves.bind (Script.only_call trivial).leaves fun _ => ?_
    refine (leaves_act conf command).bind fun result => ?_
    cases result with
    | ok code => exact rfl
    | error e =>
      refine Only.leaves ((Script.only_call trivial).bind fun _ => ?_)
      exact (uses_mention _).bind fun _ => trivial

/-- Whatever its arguments are, the program closes what it opens. -/
theorem leaves_run (conf : Configuration) (words : List OsText) :
    (Shell.run conf words).Leaves clients clients := by
  have hprint : ∀ (fragments : List String) (code : Int),
      (do let _ ← Script.call (.print fragments); pure code : Script Int).Leaves clients clients :=
    fun fragments code => Only.leaves ((Script.only_call trivial).bind fun _ => trivial)
  unfold Shell.run
  cases Arguments.read words with
  | error stop => exact hprint _ _
  | ok line =>
    dsimp only
    cases line.command? with
    | some command => exact leaves_execute conf command
    | none => exact hprint _ _

/-! ### Clients of a cluster -/

/-- A session in which the operator's stream is a world of its own. -/
def Session.printing {σ τ : Type} (k : Connector σ)
    (write : List String → τ → Except String Unit × τ) : Script.World (Session σ × τ) where
  answer
    | .print fragments, (s, u) =>
      let (result, u) := write fragments u
      (result, (s, u))
    | action, (s, u) =>
      let (reply, s) := Session.answer k action s
      (reply, (s, u))

/-- **Connections that are released.** Over a cluster with any open clients, the count of open
connections is their number, and each of them that is dropped is counted down. Whatever the
configuration and the arguments are, whichever attempts to connect fail, and whatever becomes of
what is written, the program holds these clients at every point, and besides them only its own; when
it ends, these are open and no others, and the count is what it was. -/
theorem run_releases {τ : Type} {clients : List Group} {s : Session (Nat × Cluster)}
    (hheld : Cluster.Held clients s.cluster.2) (failing : List Nat) (conf : Configuration)
    (words : List OsText) (write : List String → τ → Except String Unit × τ) (u : τ) :
    let w := Session.printing (.refusing failing Cluster.connector) write
    let p := Shell.run conf words
    let ended := (p.run w (s, u)).2.1.cluster.2
    s.cluster.2.openClients = clients.length ∧
    (∀ group ∈ clients,
      (Cluster.connector.disconnect group s.cluster.2).openClients + 1
        = s.cluster.2.openClients) ∧
    (∀ xs ys t, p.turns w (s, u) = xs ++ ys → Script.Replies w (s, u) xs t →
      ∃ own, Cluster.Held (own ++ clients) t.1.cluster.2) ∧
    Cluster.Held clients ended ∧ ended.openClients = s.cluster.2.openClients := by
  intro w p ended
  have hanswer : ∀ action (t : Session (Nat × Cluster) × τ) before after,
      Cluster.Held (before ++ clients) t.1.cluster.2 →
      Turn.Takes ⟨action, (w.answer action t).1⟩ before after →
      Cluster.Held (after ++ clients) (w.answer action t).2.1.cluster.2 := by
    rintro action ⟨t, v⟩ before after h htakes
    cases action with
    | print fragments =>
      obtain ⟨-, rfl⟩ := htakes
      exact h
    | _ => exact Cluster.Held.answer failing h htakes
  have hcount := hheld.openClients_eq
  have hleaves : p.Leaves [] [] := leaves_run conf words
  obtain ⟨hpoints, hended⟩ := hleaves.run (s := (s, u))
    (I := fun own (t : Session (Nat × Cluster) × τ) => Cluster.Held (own ++ clients) t.1.cluster.2)
    hanswer hheld
  refine ⟨hcount, fun group hgroup => ?_, hpoints, hended, ?_⟩
  · have hpos := List.length_pos_of_mem hgroup
    change s.cluster.2.openClients - 1 + 1 = s.cluster.2.openClients
    omega
  · exact hended.openClients_eq.trans hcount.symm

/-- The cluster with one group while a client of it is open. -/
def openLone : Cluster :=
  (Cluster.connector.connect (.of .bootstrap [.ofAddress ⟨"h1", 9870⟩]) lone).state

/-- The second attempt to connect fails, and nothing can be written. -/
def failingWorld : Script.World (Session (Nat × Cluster) × Unit) :=
  Session.printing (.refusing [1] Cluster.connector) fun _ u => (.error "closed", u)

/-- A peer is added while another client is open: the connection to the resolved group is refused,
and nothing can be written. -/
theorem run_releases_lone :
    let words : List OsText := ["quorumsh", "quorumAdd", "-peers", "h1:9870", "-addPeer", "h2:9870"]
    let ended := (Shell.run .empty words).run failingWorld (.start (0, openLone) .empty none, ())
    openLone.openClients = 1 ∧ ended.1 = exitError ∧ ended.2.1.cluster.1 = 2 ∧
      ended.2.1.cluster.2.openClients = openLone.openClients := by
  have hheld : Cluster.Held [.of .bootstrap [.ofAddress ⟨"h1", 9870⟩]] openLone :=
    (Cluster.Held.empty.adjust (.group (.of .bootstrap [.ofAddress ⟨"h1", 9870⟩]) none)).connect _
  intro words
  obtain ⟨hcount, -, -, -, hsame⟩ := run_releases (s := .start (0, openLone) .empty none) hheld [1]
    .empty words (fun _ (u : Unit) => (.error "closed", u)) ()
  refine ⟨hcount, ?_, ?_, hsame⟩
  · decide +kernel
  · decide +kernel

end RaftAdmin
