import Mathlib.Data.List.Nodup
import RaftAdmin.Proofs.Resolution.Path
import RaftAdmin.Proofs.Retry.Dispatch

/-!
# Passes over the candidates

A resolution makes up to two passes over its candidates: one to find out the group id, unless it is
known, and one to find out the members. This module says exactly which calls it makes, in which
order, and what it makes of the answers.

## The model

Of a conversation only the calls count here, with the replies to them (`Turn.calls`); what is told
to the configuration and the log is left out, and so is the closing of the connection. `Pass` is one
question to the candidates, in order and up to the first answer that is taken. `Asking` lists the
ways in which a resolution can go once its request was read, with all calls of each.

## What is proved

* `pass_of_firstAnswer` — asking one candidate after the other is a pass.
* `Pass.unanswered_iff` — a pass finds nothing exactly if it has asked every candidate in vain.
* `Pass.found_of_taken` — an answer that can be taken is taken, whatever was answered before.
* `asking_of_resolve` — with whomever, a resolution that has read its request goes in one of those
  ways.
-/

namespace RaftAdmin

open Script (Path)

/-! ### Calls -/

/-- The calls of a conversation, with the replies to them. -/
def Turn.calls (xs : List Turn) : List Turn := xs.filter fun x => x.action.calls

/-- The groups that a peer belongs to, if it answers with any. -/
def Turn.groups? : Turn → Option (List GroupId)
  | ⟨.listGroups _ _, .ok ids⟩ => if ids.isEmpty then none else some ids
  | _ => none

/-- What a peer says about a group, if it answers with success and with members. -/
def Turn.info? : Turn → Option GroupInfoReply
  | ⟨.groupInfo _ _ _, .ok info⟩ =>
    if info.reply.success && !info.group.isEmpty then some info else none
  | _ => none

variable {xs : List Turn}

theorem Turn.groups?_eq_some_iff {x : Turn} {ids : List GroupId} :
    x.groups? = some ids ↔ ids ≠ [] ∧ ∃ group p, x = ⟨.listGroups group p, .ok ids⟩ := by
  constructor
  · intro h
    unfold groups? at h
    split at h
    · next group p ids' =>
      obtain ⟨hne, hids⟩ := Option.ite_none_left_eq_some.mp h
      obtain rfl := Option.some.inj hids
      exact ⟨by simpa using hne, group, p, rfl⟩
    · cases h
  · rintro ⟨hne, group, p, rfl⟩
    exact if_neg (by simpa using hne)

theorem Turn.calls_append (xs ys : List Turn) : calls (xs ++ ys) = calls xs ++ calls ys :=
  List.filter_append ..

theorem Turn.calls_of_notes (h : ∀ x ∈ xs, x.action.Notes) : calls xs = [] :=
  List.filter_eq_nil_iff.mpr fun x hx => by simp [(h x hx).not_calls]

namespace Resolution

/-! ### One pass -/

variable {β : Type} {question : Peer → Action} {taken? : Turn → Option β} {ps : List Peer}
  {found : Option β}

/-- A question was put to the candidates one after the other, until an answer was taken. -/
structure Pass (question : Peer → Action) (taken? : Turn → Option β) (ps : List Peer)
    (xs : List Turn) (found : Option β) : Prop where
  /-- The candidates are asked in order, each of them once, -/
  asked : xs.map Turn.action <+: ps.map question
  /-- nobody after an answer that was taken; -/
  passed : ∀ x ∈ xs.dropLast, taken? x = none
  /-- what was found is the first such answer, -/
  first : found = xs.findSome? taken?
  /-- and if nothing was, all were asked. -/
  exhausted : found = none → xs.map Turn.action = ps.map question

theorem pass_nil : Pass question taken? [] [] none :=
  ⟨List.prefix_refl _, by simp, rfl, fun _ => rfl⟩

/-- The pass ends with an answer that is taken. -/
theorem pass_taken {p : Peer} {x : Turn} {b : β} (hx : x.action = question p)
    (htaken : taken? x = some b) : Pass question taken? (p :: ps) [x] (some b) where
  asked := ⟨ps.map question, by simp [hx]⟩
  passed := by simp
  first := by simp [htaken]
  exhausted h := by cases h

/-- An answer that is not taken is passed over. -/
theorem Pass.cons (h : Pass question taken? ps xs found) {p : Peer} {x : Turn}
    (hx : x.action = question p) (hpassed : taken? x = none) :
    Pass question taken? (p :: ps) (x :: xs) found where
  asked := by
    rw [List.map_cons, List.map_cons, hx, List.prefix_cons_inj]
    exact h.asked
  passed := Retry.forall_mem_dropLast_cons hpassed h.passed
  first := by
    rw [List.findSome?_cons, hpassed]
    exact h.first
  exhausted hfound := by rw [List.map_cons, List.map_cons, hx, h.exhausted hfound]

/-- Asking one candidate after the other is a pass, if each of them is asked by one call. -/
theorem pass_of_firstAnswer {name : Peer → String} {index : Nat}
    {ask : Peer → Script (Except RpcFailure (Option β))}
    (hask : ∀ p ys answer, Path (ask p) ys answer →
      ∃ x, Turn.calls ys = [x] ∧ x.action = question p ∧ answer.toOption.join = taken? x)
    (h : Path (Retry.firstAnswer (fun e => Script.call (.log e)) name ask index ps) xs found) :
    Pass question taken? ps (Turn.calls xs) found := by
  induction ps generalizing index xs with
  | nil =>
    obtain ⟨rfl, rfl⟩ := Script.path_pure_iff.mp h
    exact pass_nil
  | cons p ps ih =>
    obtain ⟨ys, answer, zs, hys, rfl, hanswer⟩ := Retry.path_firstAnswer_cons h
    obtain ⟨x, hcalls, hx, htaken⟩ := hask p ys answer hys
    rw [Turn.calls_append, hcalls]
    rcases hanswer with ⟨b, rfl, rfl, rfl⟩ | ⟨hnone, event, us, ws, hus, hws, rfl⟩
    · exact pass_taken hx htaken.symm
    · obtain rfl := Script.path_call_iff.mp hus
      exact (ih hws).cons hx (htaken.symm.trans hnone)

/-- Only the question was put to anybody, and only to the candidates. -/
theorem Pass.action_eq (h : Pass question taken? ps xs found) {x : Turn} (hx : x ∈ xs) :
    ∃ p ∈ ps, x.action = question p := by
  obtain ⟨p, hp, hq⟩ := List.mem_map.mp (h.asked.subset (List.mem_map_of_mem hx))
  exact ⟨p, hp, hq.symm⟩

/-- Nobody is asked twice. -/
theorem Pass.nodup (h : Pass question taken? ps xs found) (hps : (ps.map question).Nodup) :
    (xs.map Turn.action).Nodup :=
  h.asked.sublist.nodup hps

/-- The question was put to each of these peers, and no answer was taken. -/
def Unanswered (question : Peer → Action) (taken? : Turn → Option β) (ps : List Peer)
    (xs : List Turn) : Prop :=
  ∀ p ∈ ps, ∃ x ∈ xs, x.action = question p ∧ taken? x = none

/-- Nothing was found exactly if every candidate was asked, and no answer was taken. -/
theorem Pass.unanswered_iff (h : Pass question taken? ps xs found)
    (hps : (ps.map question).Nodup) : Unanswered question taken? ps xs ↔ found = none := by
  constructor
  · intro hall
    cases hfound : found with
    | none => rfl
    | some b =>
      -- the candidate whose answer was taken was asked once only
      obtain ⟨x, hx, htaken⟩ := List.exists_of_findSome?_eq_some (h.first ▸ hfound)
      obtain ⟨p, hp, hxp⟩ := h.action_eq hx
      obtain ⟨y, hy, hyp, hpassed⟩ := hall p hp
      obtain rfl : x = y :=
        List.inj_on_of_nodup_map (h.nodup hps) hx hy (hxp.trans hyp.symm)
      rw [htaken] at hpassed
      cases hpassed
  · rintro rfl p hp
    have hasked : question p ∈ xs.map Turn.action :=
      h.exhausted rfl ▸ List.mem_map_of_mem hp
    obtain ⟨x, hx, hxp⟩ := List.mem_map.mp hasked
    have hpassed := List.findSome?_eq_none_iff.mp h.first.symm
    exact ⟨x, hx, hxp, hpassed x hx⟩

/-- An answer that could be taken was taken, whatever the candidates before answered. -/
theorem Pass.found_of_taken (h : Pass question taken? ps xs found) {x : Turn} (hx : x ∈ xs) {b : β}
    (htaken : taken? x = some b) : found = some b := by
  rcases List.eq_nil_or_concat xs with rfl | ⟨ys, y, rfl⟩
  · cases hx
  · have hpassed := h.passed
    have hfirst := h.first
    rw [List.concat_eq_append] at hx hfirst hpassed
    rw [List.dropLast_concat] at hpassed
    have hx' : x ∉ ys := fun hx' => by simp [hpassed x hx'] at htaken
    obtain rfl : x = y := by simpa [hx'] using hx
    rw [hfirst, List.findSome?_append, List.findSome?_eq_none_iff.mpr hpassed, Option.none_or,
      List.findSome?_singleton, htaken]

/-- What was found is the last answer, and none before it was taken. -/
theorem Pass.exists_last {b : β} (h : Pass question taken? ps xs (some b)) :
    ∃ before x, xs = before ++ [x] ∧ taken? x = some b ∧ ∀ y ∈ before, taken? y = none := by
  obtain ⟨x, hx, htaken⟩ := List.exists_of_findSome?_eq_some h.first.symm
  rcases List.eq_nil_or_concat xs with rfl | ⟨before, y, rfl⟩
  · cases hx
  rw [List.concat_eq_append] at h hx ⊢
  have hpassed := h.passed
  rw [List.dropLast_concat] at hpassed
  refine ⟨before, y, rfl, ?_, hpassed⟩
  rcases List.mem_append.mp hx with hx | hx
  · rw [hpassed x hx] at htaken
    cases htaken
  · exact List.mem_singleton.mp hx ▸ htaken

/-- A question that was put to nobody was not put to all. -/
theorem not_unanswered_nil (hps : ps ≠ []) : ¬ Unanswered question taken? ps [] := by
  obtain ⟨p, ps, rfl⟩ := List.exists_cons_of_ne_nil hps
  intro h
  obtain ⟨x, hx, -⟩ := h p List.mem_cons_self
  cases hx

/-! ### The two questions -/

variable {candidates : Group} {id : GroupId}

theorem calls_of_askGroups {p : Peer} {answer : Except RpcFailure (Option (List GroupId))}
    (h : Path (askGroups candidates p) xs answer) :
    ∃ x, Turn.calls xs = [x] ∧ x.action = .listGroups candidates p ∧
      answer.toOption.join = x.groups? := by
  obtain ⟨reply, rfl, rfl⟩ := path_askGroups h
  refine ⟨_, rfl, rfl, ?_⟩
  cases reply <;> rfl

theorem calls_of_askInfo {p : Peer} {answer : Except RpcFailure (Option GroupInfoReply)}
    (h : Path (askInfo candidates id p) xs answer) :
    ∃ x, Turn.calls xs = [x] ∧ x.action = .groupInfo candidates p id ∧
      answer.toOption.join = x.info? := by
  obtain ⟨reply, us, rfl, hus, rfl⟩ := path_askInfo h
  refine ⟨⟨.groupInfo candidates p id, reply⟩, ?_, rfl, ?_⟩
  · exact congrArg (_ :: ·) (Turn.calls_of_notes hus)
  · cases reply <;> rfl

/-- The candidates were asked for the groups that they belong to. -/
def Listing (candidates : Group) : List Turn → Option (List GroupId) → Prop :=
  Pass (fun p => .listGroups candidates p) Turn.groups? candidates.peers

/-- The candidates were asked about a group. -/
def Informing (candidates : Group) (id : GroupId) : List Turn → Option GroupInfoReply → Prop :=
  Pass (fun p => .groupInfo candidates p id) Turn.info? candidates.peers

theorem listing_of_discover {r : Except AdminError GroupId}
    (h : Path (discover candidates).run xs r) :
    ∃ found, Listing candidates (Turn.calls xs) found ∧
      r = found.elim (.error (noReachablePeer .listGroups candidates)) sole := by
  obtain ⟨ys, us, answer, hys, hus, rfl, rfl⟩ := path_discover h
  obtain ⟨found, hfound, rfl⟩ := path_askAll hys
  refine ⟨found, ?_, by cases found <;> rfl⟩
  rw [Turn.calls_append, Turn.calls_of_notes hus, List.append_nil]
  exact pass_of_firstAnswer (fun _ _ _ => calls_of_askGroups) hfound

theorem informing_of_fetchInfo {r : Except AdminError GroupInfoReply}
    (h : Path (fetchInfo candidates id).run xs r) :
    ∃ found, Informing candidates id (Turn.calls xs) found ∧
      r = found.elim (.error (noReachablePeer .groupInfo candidates)) .ok := by
  obtain ⟨found, hfound, rfl⟩ := path_askAll h
  exact ⟨found, pass_of_firstAnswer (fun _ _ _ => calls_of_askInfo) hfound, rfl⟩

/-! ### A resolution -/

variable {known? : Option GroupId} {reply : Except RpcFailure Unit} {listing informing : List Turn}
  {r : Except AdminError ResolvedGroup}

/-- The group id was known, and nobody was asked for groups, or it is the only one in the first
answer that names any. -/
def Chosen (candidates : Group) (known? : Option GroupId) (listing : List Turn) (id : GroupId) :
    Prop :=
  known? = some id ∧ listing = [] ∨ known? = none ∧ Listing candidates listing (some [id])

/-- How a resolution goes that has read its request: the reply to its connecting to the candidates,
the calls that ask for groups, those that ask about the group, and the result. -/
inductive Asking (candidates : Group) (known? : Option GroupId) :
    Except RpcFailure Unit → List Turn → List Turn → Except AdminError ResolvedGroup → Prop where
  /-- The connection is refused. -/
  | refused (failure : RpcFailure) :
      Asking candidates known? (.error failure) [] [] (.error (.internal failure))
  /-- No candidate names a group. -/
  | unlisted {listing : List Turn} :
      known? = none → Listing candidates listing none →
        Asking candidates known? (.ok ()) listing []
          (.error (noReachablePeer .listGroups candidates))
  /-- The first candidate that names groups does not name just one. -/
  | ambiguous {listing : List Turn} {ids : List GroupId} :
      known? = none → Listing candidates listing (some ids) → ids.length ≠ 1 →
        Asking candidates known? (.ok ()) listing [] (.error (.ambiguousGroup ids))
  /-- No candidate knows the members of the group. -/
  | uninformed {listing informing : List Turn} {id : GroupId} :
      Chosen candidates known? listing id → Informing candidates id informing none →
        Asking candidates known? (.ok ()) listing informing
          (.error (noReachablePeer .groupInfo candidates))
  /-- The group has the members that the first candidate tells who knows them. -/
  | informed {listing informing : List Turn} {id : GroupId} {info : GroupInfoReply} :
      Chosen candidates known? listing id → Informing candidates id informing (some info) →
        Asking candidates known? (.ok ()) listing informing (.ok (assemble candidates id info))

theorem sole_of_length_ne {ids : List GroupId} (h : ids.length ≠ 1) :
    sole ids = .error (.ambiguousGroup ids) := by
  match ids with
  | [] => rfl
  | [id] => exact absurd rfl h
  | _ :: _ :: _ => rfl

/-- With whomever, a resolution that has read its request goes in one of those ways. -/
theorem asking_of_gather {seed : Seed} (h : Path (gather candidates seed).run xs r) :
    ∃ reply listing informing,
      Turn.calls xs = ⟨.connect candidates, reply⟩ :: (listing ++ informing) ∧
        Asking candidates seed.id? reply listing informing r := by
  rcases path_gather h with ⟨failure, rfl, rfl⟩ | ⟨ys, us, found, hys, hus, rfl, rfl⟩
  · exact ⟨_, [], [], rfl, .refused failure⟩
  have hclose : Turn.calls (⟨.disconnect candidates, ()⟩ :: us) = Turn.calls us := rfl
  have hcalls : ∀ {zs}, Turn.calls ys = zs →
      Turn.calls (⟨.connect candidates, .ok ()⟩ :: ys ++ ⟨.disconnect candidates, ()⟩ :: us)
        = ⟨.connect candidates, .ok ()⟩ :: zs := by
    rintro _ rfl
    rw [Turn.calls_append, hclose, Turn.calls_of_notes hus, List.append_nil]
    rfl
  rcases path_inquire hys with ⟨e, hseed, hdiscover, rfl⟩ | ⟨id, vs, ws, info, hid, hinfo, rfl, rfl⟩
  · refine ⟨_, Turn.calls ys, [], hcalls (List.append_nil _).symm, ?_⟩
    obtain ⟨ids?, hlisting, hids⟩ := listing_of_discover hdiscover
    cases ids? with
    | none =>
      obtain rfl := Except.error.inj hids
      exact .unlisted hseed hlisting
    | some ids =>
      have hlength : ids.length ≠ 1 := by
        intro hlength
        obtain ⟨id, rfl⟩ := List.length_eq_one_iff.mp hlength
        cases hids
      obtain rfl := Except.error.inj (hids.trans (sole_of_length_ne hlength))
      exact .ambiguous hseed hlisting hlength
  · refine ⟨_, Turn.calls vs, Turn.calls ws, hcalls (Turn.calls_append vs ws), ?_⟩
    have hchosen : Chosen candidates seed.id? (Turn.calls vs) id := by
      rcases hid with ⟨hseed, rfl⟩ | ⟨hseed, hdiscover⟩
      · exact .inl ⟨hseed, rfl⟩
      · obtain ⟨ids?, hlisting, hids⟩ := listing_of_discover hdiscover
        have hsole : ids? = some [id] := by
          match ids?, hids with
          | some [_], hids => rw [Except.ok.inj hids]
        exact .inr ⟨hseed, hsole ▸ hlisting⟩
    obtain ⟨info?, hinforming, rfl⟩ := informing_of_fetchInfo hinfo
    cases info? with
    | none => exact .uninformed hchosen hinforming
    | some info => exact .informed hchosen hinforming

/-- With whomever, a resolution calls nobody if its request cannot be read, and otherwise connects
and goes in one of those ways. -/
theorem asking_of_resolve {conf : Configuration} {request : GroupRequest}
    (h : Path (resolve conf request).run xs r) :
    (∃ e, plan conf request = .error e ∧ r = .error e ∧ Turn.calls xs = []) ∨
      ∃ seed candidates reply listing informing, plan conf request = .ok (seed, candidates) ∧
        Turn.calls xs = ⟨.connect candidates, reply⟩ :: (listing ++ informing) ∧
        Asking candidates seed.id? reply listing informing r := by
  rcases path_resolve_gather h with
    ⟨e, hplan, hr, hnotes⟩ | ⟨seed, candidates, us, ys, hplan, hus, hgather, rfl⟩
  · exact .inl ⟨e, hplan, hr, Turn.calls_of_notes hnotes⟩
  · obtain ⟨reply, listing, informing, hcalls, hasking⟩ := asking_of_gather hgather
    refine .inr ⟨seed, candidates, reply, listing, informing, hplan, ?_, hasking⟩
    rw [Turn.calls_append, Turn.calls_of_notes hus, List.nil_append, hcalls]

end Resolution

end RaftAdmin
