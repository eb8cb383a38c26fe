import RaftAdmin.Proofs.Cluster.Agreement
import RaftAdmin.Proofs.Command.Outcome
import RaftAdmin.Proofs.Text.Lines

/-!
# What showing a group says

A command that shows a group asks twice: first who the members are, and then the first of them what
it knows. It writes down what this member says, which may be the leader or may have heard of one.

## The model

`GroupState.shown` is a group as the cluster has it on record, line by line, and `Cluster.Untouched`
says that a cluster has been asked questions and nothing else.

## What is proved

* `untouched_of_asks` — questions leave a cluster untouched.
* `told_of_course` — a command that shows a group and succeeds writes down what the first member
  says, and nothing more.
* `map_join_infoLines` — what any member says is the group as it is on record.
* **`execute_info`** — a command that shows a group changes nothing, and says what is on record.
-/

namespace RaftAdmin

open Script (Path Replies)

variable {s t : Session Cluster} {xs : List Turn} {conf : Configuration} {command : Command}
  {r : ResolvedGroup} {result : Except AdminError Int}

/-! ### Questions change nothing -/

/-- All is as before, but for the record of who was asked and of connections. -/
def Cluster.Untouched (c c' : Cluster) : Prop :=
  c' = { c with contacted := c'.contacted, connects := c'.connects, openClients := c'.openClients }

theorem Cluster.Untouched.trans {c c' c'' : Cluster} (h : c.Untouched c') (h' : c'.Untouched c'') :
    c.Untouched c'' := by
  unfold Untouched at h h' ⊢
  rw [h] at h'
  exact h'

theorem Cluster.Untouched.groups {c c' : Cluster} (h : c.Untouched c') : c'.groups = c.groups := by
  rw [h]

theorem Cluster.Untouched.state? {c c' : Cluster} (h : c.Untouched c') (id : GroupId) :
    c'.state? id = c.state? id := by
  rw [Cluster.state?, h.groups]
  rfl

theorem Cluster.Untouched.submitted {c c' : Cluster} (h : c.Untouched c') :
    c'.submitted = c.submitted := by
  rw [h]

theorem untouched_answer {action : Action} (h : action.Asks) (s : Session Cluster) :
    s.cluster.Untouched (Session.answer Cluster.connector action s).2.cluster := by
  cases action with
  | setConfiguration group peers => exact h.elim
  | transferLeadership group target timeout => exact h.elim
  | _ => rfl

/-- Questions leave a cluster untouched. -/
theorem untouched_of_asks (h : Replies Cluster.world s xs t) (hxs : ∀ x ∈ xs, x.action.Asks) :
    s.cluster.Untouched t.cluster := by
  induction h with
  | nil s => rfl
  | cons action _ ih =>
    obtain ⟨haction, hrest⟩ := List.forall_mem_cons.mp hxs
    exact (untouched_answer haction _).trans (ih hrest)

/-- A command that shows a group only asks. -/
theorem asks_of_info {code : Int} (h : Path (Shell.execute conf command) xs code)
    (htask : command.task = .info) : ∀ x ∈ xs, x.action.Asks := by
  cases amends_of_path h with
  | nothing hxs => exact hxs
  | members r peers reply hne => exact absurd htask hne
  | leader r peers accepted target timeout reply helect =>
    obtain ⟨address?, helect⟩ := helect
    cases htask.symm.trans helect

/-! ### What is written -/

theorem text_line (fragments : List String) :
    (Turn.line fragments (.ok ())).text = String.join fragments ++ "\n" := by
  simp [Turn.line, Turn.text]

/-- Nothing is written while a group is looked for. -/
theorem join_text_of_inquires (h : ∀ x ∈ xs, x.action.Inquires) :
    String.join (xs.map Turn.text) = "" := by
  have hempty : xs.map Turn.text = xs.map fun _ => "" := by
    refine List.map_congr_left fun x hx => ?_
    obtain ⟨action, reply⟩ := x
    cases action with
    | print fragments => exact (h _ hx).elim
    | _ => rfl
  rw [hempty]
  clear hempty h
  induction xs with
  | nil => rfl
  | cons x xs ih => simpa using ih

theorem join_text_of_writing {lines : List (List String)} {shown : Except AdminError Unit}
    (h : Writing lines xs shown) (hwritten : ∀ x ∈ xs, ¬ x.Unwritten) :
    String.join (xs.map Turn.text) = Text.unlines (lines.map String.join) := by
  induction h with
  | done => rfl
  | next line _ ih =>
    have hrest := ih fun x hx => hwritten x (List.mem_cons_of_mem _ hx)
    simp only [List.map_cons, String.join_cons, text_line, hrest, Text.unlines]
  | broken line lines cause => exact (hwritten _ List.mem_cons_self trivial).elim

/-- Asking the first member, and writing down what it says. -/
theorem told_of_telling (h : Telling r xs result) (hok : result = .ok exitOk)
    (hwritten : ∀ x ∈ xs, ¬ x.Unwritten) :
    ∃ first info, ⟨.groupInfo r.contactGroup first r.group.id, .ok info⟩ ∈ xs ∧
      info.reply.success = true ∧
      String.join (xs.map Turn.text) = Text.unlines ((infoLines info).map String.join) := by
  cases h with
  | memberless hpeers => cases hok
  | unanswered hpeers failure => cases hok
  | declined hpeers info written hreply => cases hok
  | told hpeers info hreply hwriting =>
    refine ⟨_, info, List.mem_cons_self, hreply, ?_⟩
    have hlines := join_text_of_writing hwriting fun y hy => hwritten y (List.mem_cons_of_mem _ hy)
    rw [List.map_cons, String.join_cons, hlines]
    exact String.empty_append

/-- Showing a group is writing its id, and then what its first member says. -/
theorem told_of_doing (h : Doing r .inspect xs result) (hok : result = .ok exitOk)
    (hwritten : ∀ x ∈ xs, ¬ x.Unwritten) :
    ∃ first info, ⟨.groupInfo r.contactGroup first r.group.id, .ok info⟩ ∈ xs ∧
      info.reply.success = true ∧ String.join (xs.map Turn.text)
        = Text.unlines ((["group id: ", r.group.id.text] :: infoLines info).map String.join) := by
  cases h with
  | unshown cause => cases hok
  | inspect hconnected =>
    rcases hconnected with ⟨failure, rfl, rfl⟩ | ⟨ys, htelling, rfl⟩
    · cases hok
    obtain ⟨first, info, htold, hsuccess, htext⟩ := told_of_telling htelling hok
      fun y hy => hwritten y (by simp [hy])
    refine ⟨first, info, by simp [htold], hsuccess, ?_⟩
    have hconnect : Turn.text ⟨.connect r.contactGroup, .ok ()⟩ = "" := rfl
    have hdisconnect : Turn.text ⟨.disconnect r.contactGroup, ()⟩ = "" := rfl
    simp [text_line, htext, hconnect, hdisconnect, Text.unlines]
  | submit errand context events hchanges => exact hchanges.elim

/-- A command that shows a group and succeeds has resolved a group and asked its first member, and
has written down what this member says, and nothing more. -/
theorem told_of_course {request : GroupRequest} {code : Int}
    (h : Course ⟨.info, request⟩ conf xs code) (hcode : code = exitOk)
    (hwritten : ∀ x ∈ xs, ¬ x.Unwritten) :
    ∃ r first info us ys zs, Path (Resolution.resolve conf request).run ys (.ok r) ∧
      xs = us ++ (ys ++ zs) ∧ ⟨.groupInfo r.contactGroup first r.group.id, .ok info⟩ ∈ zs ∧
      info.reply.success = true ∧
      String.join (xs.map Turn.text)
        = Text.unlines ((["group id: ", r.group.id.text] :: infoLines info).map String.join) := by
  cases h with
  | refused e => exact absurd hcode e.exitCode_ne
  | unresolved e => exact absurd hcode e.exitCode_ne
  | resolved hresolves hdoing hreporting =>
    have hok := (exitOk_iff_of_reporting hreporting).mp hcode
    cases hreporting with
    | failed e written => exact absurd hcode e.exitCode_ne
    | finished code =>
      obtain ⟨us, ys, herrand, hresolve, rfl⟩ := hresolves
      obtain rfl := (serves_of_path herrand).eq_inspect
      obtain ⟨first, info, htold, hsuccess, htext⟩ := told_of_doing hdoing hok
        fun z hz => hwritten z (by simp [hz])
      refine ⟨_, first, info, ⟨.log (Shell.running ⟨.info, request⟩), ()⟩ :: us, ys, _, hresolve,
        rfl, List.mem_append_left _ htold, hsuccess, ?_⟩
      have hrunning : Turn.text ⟨.log (Shell.running ⟨.info, request⟩), ()⟩ = "" := rfl
      have hus := join_text_of_inquires (inquires_of_errand herrand)
      have hys := join_text_of_inquires ((Resolution.only_resolve _ _).of_path hresolve)
      simp [hrunning, hus, hys, htext]

/-! ### What is on record -/

/-- A group as it is on record, line by line, with this about its leader. -/
def GroupState.shown (g : GroupState) (leader : String) : List String :=
  ("group id: " ++ g.group.id.text) :: ("leader info: " ++ leader) :: "" ::
    g.group.peers.map fun p =>
      "  " ++ p.info.text ++ ": commit index " ++ Text.numeral g.commitIndex.toNat

/-- The text about a leader, who may be unknown. -/
def leaderText (leader? : Option PeerInfo) : String :=
  match leader? with
  | some leader => leader.text
  | none => "unknown"

theorem join_fragments (i : PeerInfo) : String.join i.fragments = i.text := by
  simp [PeerInfo.fragments, PeerAddress.fragments, PeerInfo.text, PeerAddress.text,
    String.append_assoc]

theorem join_leaderLine (info : GroupInfoReply) :
    String.join (leaderLine info.role?) = "leader info: " ++ leaderText info.leader? := by
  unfold leaderLine GroupInfoReply.leader? leaderText
  cases info.role?.bind RoleInfo.leader? with
  | none => rfl
  | some leader => rw [String.join_cons, join_fragments]

theorem join_commitLine (i : CommitInfo) :
    String.join (commitLine i)
      = "  " ++ i.server.text ++ ": commit index " ++ Text.numeral i.commitIndex.toNat := by
  simp [commitLine, join_fragments, String.append_assoc]

/-- What any member says is the group as it is on record. -/
theorem map_join_infoLines (g : GroupState) (me : Peer) :
    (["group id: ", g.group.id.text] :: infoLines (g.report me)).map String.join
      = g.shown (leaderText (g.report me).leader?) := by
  have hcommits : ((g.report me).commitInfos.map commitLine).map String.join = g.group.peers.map
      fun p => "  " ++ p.info.text ++ ": commit index " ++ Text.numeral g.commitIndex.toNat := by
    simp [GroupState.report, Function.comp_def, join_commitLine]
  simp [infoLines, GroupState.shown, join_leaderLine, ← hcommits]

/-- Who the members of a group say leads it. -/
theorem leaderText_report {g : GroupState} {me : Peer} (hled : g.Led)
    (hme : g.group.peer? me.id = some me) :
    match g.leader? with
    | none => leaderText (g.report me).leader? = "unknown"
    | some id => ∃ m ∈ g.group.peers, m.id = id ∧
        leaderText (g.report me).leader? = m.info.text := by
  rw [Cluster.leader?_report hme]
  cases hleader : g.leader? with
  | none => rfl
  | some id =>
    obtain ⟨m, hm⟩ := Option.isSome_iff_exists.mp (hled id hleader)
    obtain ⟨hmem, hid⟩ := Cluster.peer?_eq_some hm
    exact ⟨m, hmem, hid, by simp [hm, leaderText]⟩

/-- **What showing a group says.** Over a reached cluster, and with a stream that never breaks, a
command that shows a group changes nothing. If it succeeds, then it has written the group that its
request is resolved to, as it is on record in the cluster: its id, the id and address of the member
that leads it, if it has a leader, an empty line, and each of its members in order, with their id and
address and the commit index of the group. -/
theorem execute_info {ids : List GroupId} (hreached : Cluster.Reached ids s.cluster)
    (hsink : s.sink.limit? = none) (conf : Configuration) (request : GroupRequest) :
    let ended := Session.run Cluster.connector (Shell.execute conf ⟨.info, request⟩) s
    s.cluster.Untouched ended.2.cluster ∧
      (ended.1 = exitOk → ∃ r g leader,
        (Session.run Cluster.connector (Resolution.resolve conf request).run s).1 = .ok r ∧
        s.cluster.state? r.group.id = some g ∧
        (match s.cluster.leader? r.group.id with
          | none => leader = "unknown"
          | some id => ∃ m ∈ g.group.peers, m.id = id ∧ leader = m.info.text) ∧
        ended.2.sink.written = s.sink.written ++ Text.unlines (g.shown leader)) := by
  intro ended
  let p := Shell.execute conf ⟨.info, request⟩
  have hreplies := Script.replies_run Cluster.world p s
  have hpath := Script.path_run Cluster.world p s
  have hasks := asks_of_info hpath rfl
  refine ⟨untouched_of_asks hreplies hasks, fun hcode => ?_⟩
  obtain ⟨r, first, info, us, ys, zs, hresolve, hxs, htold, hsuccess, htext⟩ :=
    told_of_course (course_of_path hpath) hcode (Session.written_of_unlimited hreplies hsink)
  have htruthful := (truthful_of_asks hreplies hasks).1
  rw [hxs] at htruthful
  have hr := Resolution.resolve_eq_of_path hresolve fun y hy => htruthful y (by simp [hy])
  -- the answer of the first member is what it reports about the group on record
  have hanswer : s.cluster.Truthful ⟨.groupInfo r.contactGroup first r.group.id, .ok info⟩ :=
    htruthful _ (List.mem_append_right _ (List.mem_append_right _ htold))
  obtain ⟨g, me, hstate, hme, rfl⟩ :=
    Cluster.exists_report_of_answers ⟨r.contactGroup, Eq.symm hanswer, hsuccess⟩
  obtain ⟨-, hid⟩ := Cluster.peer?_eq_some hme
  have hled := hreached.led g (List.mem_of_find?_eq_some hstate)
  have hleader : s.cluster.leader? r.group.id = g.leader? := by
    rw [Cluster.leader?, hstate]
    rfl
  have hgroup : g.group.id = r.group.id := (Cluster.groups_eq_of_state? hstate).1
  refine ⟨r, g, leaderText (g.report me).leader?,
    (Resolution.resolve_eq conf request s).trans hr.symm, hstate, ?_, ?_⟩
  · rw [hleader]
    exact leaderText_report hled (hid ▸ hme)
  · rw [← map_join_infoLines, hgroup, ← htext]
    exact Session.written_eq_append hreplies hsink

/-- A group of two that the second leads. -/
def ledBySecond : Cluster :=
  Cluster.empty.addGroup (.of .bootstrap [.ofAddress ⟨"h1", 9870⟩, .ofAddress ⟨"h2", 9870⟩])
    (some ⟨"h2_9870"⟩)

/-- The first, which is asked, tells of the second. -/
theorem execute_info_ledBySecond :
    let ended := Session.run Cluster.connector
      (Shell.execute .empty ⟨.info, ⟨some "h1:9870", none, none⟩⟩) (.start ledBySecond .empty none)
    ended.1 = exitOk ∧ ∃ g, ledBySecond.state? .bootstrap = some g ∧
      ended.2.sink.written = Text.unlines (g.shown "h2_9870(h2:9870)") := by
  intro ended
  have hreached : Cluster.Reached [.bootstrap] ledBySecond :=
    Cluster.Reached.empty.addGroup (.of .bootstrap _) _
  have hcode : ended.1 = exitOk := by decide +kernel
  obtain ⟨r, g, leader, hr, hstate, hleader, hwritten⟩ :=
    (execute_info (s := .start ledBySecond .empty none) hreached rfl .empty
      ⟨some "h1:9870", none, none⟩).2 hcode
  have hid : GroupId.bootstrap = r.group.id :=
    Option.some.inj (congrArg (fun found => found.toOption.map (·.group.id)) hr)
  rw [← hid] at hstate hleader
  obtain ⟨m, hm, hmid, rfl⟩ := hleader
  refine ⟨hcode, g, hstate, ?_⟩
  obtain rfl := Option.some.inj hstate
  have hsecond : m = .ofAddress ⟨"h2", 9870⟩ := by
    rcases List.mem_pair.mp hm with rfl | rfl
    · exact absurd hmid (by decide)
    · rfl
  rw [hsecond] at hwritten
  exact hwritten

end RaftAdmin
