import RaftAdmin.Proofs.Wire.Legible

/-!
# The wire format is read as it is written

Peers, groups, outcomes, roles, commit indices and replies about groups are sent as JSON texts. The
reader takes much that the writer never makes: members in any order and of unknown names, arrays in
place of objects, `null` for what is missing, blanks. On what the writer makes, the two agree.

## The model

A record round-trips if each of its addresses is read from some text. A host that is empty or starts
with a blank never is, since a text is trimmed before it is cut at its last colon; but such an
address comes neither from an operator nor from a reply.

## What is proved

* `Kind.read_write`, `Kind.legible_of_read` — the lemmas about each record, for all kinds at once.
* **`Kind.round_trips`** — for each kind of record: what is written is read as it was, and what was
  read from any text is read again, after it is written, as what it was.
-/

namespace RaftAdmin.Wire

open Json (Value Faithful)

/-! ### The kinds of records -/

/-- The kinds of records that are sent on their own. -/
inductive Kind where
  /-- A peer. -/
  | peer
  /-- A group. -/
  | group
  /-- The outcome of a request. -/
  | reply
  /-- A role with the server that plays it. -/
  | role
  /-- A commit index with its server. -/
  | commit
  /-- What a peer knows about a group. -/
  | info
deriving DecidableEq, Repr

namespace Kind

/-- What a record of this kind says. -/
@[reducible] def Content : Kind → Type
  | peer => Peer
  | group => Group
  | reply => ClientReply
  | role => RoleInfo
  | commit => CommitInfo
  | info => GroupInfoReply

/-- Reads a record of this kind. -/
def read : (k : Kind) → Value → Option k.Content
  | peer => readPeer
  | group => readGroup
  | reply => readReply
  | role => readRoleInfo
  | commit => readCommitInfo
  | info => readGroupInfo

/-- Writes a record of this kind. -/
def write : (k : Kind) → k.Content → Value
  | peer => writePeer
  | group => writeGroup
  | reply => writeReply
  | role => writeRoleInfo
  | commit => writeCommitInfo
  | info => writeGroupInfo

/-- The record that a text spells. -/
def decode (k : Kind) (text : String) : Option k.Content := (Json.read text).bind k.read

/-- The text of a record. -/
def encode (k : Kind) (x : k.Content) : String := Json.render (k.write x)

/-- The addresses that occur in a record. -/
def addresses : (k : Kind) → k.Content → List PeerAddress
  | peer, p => [p.address]
  | group, g => g.peers.map Peer.address
  | reply, r => r.leaderHint?.toList
  | role, r => roleAddresses r
  | commit, i => [i.server.address]
  | info, r => r.reply.leaderHint?.toList ++ r.group.peers.map Peer.address
      ++ r.role?.toList.flatMap roleAddresses ++ r.commitInfos.map fun i => i.server.address

variable {k : Kind} {x : k.Content}

theorem faithful_write (k : Kind) (x : k.Content) : Faithful (k.write x) :=
  match k with
  | peer => faithful_writePeer x
  | group => faithful_writeGroup x
  | reply => faithful_writeReply x
  | role => faithful_writeRoleInfo x
  | commit => faithful_writeCommitInfo x
  | info => faithful_writeGroupInfo x

theorem read_write (h : ∀ a ∈ k.addresses x, a.Legible) : k.read (k.write x) = some x := by
  cases k with
  | peer => exact readPeer_writePeer (h _ List.mem_cons_self)
  | group => exact readGroup_writeGroup fun p hp => h _ (List.mem_map_of_mem hp)
  | reply => exact readReply_writeReply fun a ha => h a (Option.mem_toList.mpr ha)
  | role => exact readRoleInfo_writeRoleInfo h
  | commit => exact readCommitInfo_writeCommitInfo (h _ List.mem_cons_self)
  | info =>
    simp only [addresses, List.forall_mem_append, List.forall_mem_map, List.forall_mem_flatMap,
      Option.mem_toList] at h
    obtain ⟨⟨⟨hreply, hgroup⟩, hrole⟩, hcommits⟩ := h
    exact readGroupInfo_writeGroupInfo hreply hgroup hrole hcommits

theorem legible_of_read {v : Value} (h : k.read v = some x) : ∀ a ∈ k.addresses x, a.Legible := by
  cases k with
  | peer => exact List.forall_mem_singleton.mpr (legible_of_readPeer h)
  | group => exact List.forall_mem_map.mpr fun p hp => legible_of_readGroup h hp
  | reply =>
    obtain ⟨fs, -, h⟩ := Option.bind_eq_some_iff.mp h
    exact fun a ha => legible_of_readReplyFields h (Option.mem_toList.mp ha)
  | role => exact legible_of_readRoleInfo h
  | commit => exact List.forall_mem_singleton.mpr (legible_of_readCommitInfo h)
  | info =>
    obtain ⟨hreply, hgroup, hrole, hcommits⟩ := legible_of_readGroupInfo h
    simp only [addresses, List.forall_mem_append, List.forall_mem_map, List.forall_mem_flatMap,
      Option.mem_toList]
    exact ⟨⟨⟨hreply, hgroup⟩, hrole⟩, hcommits⟩

theorem decode_encode (h : ∀ a ∈ k.addresses x, a.Legible) : k.decode (k.encode x) = some x := by
  rw [decode, encode, Json.read_render (k.faithful_write x), Option.bind_some, read_write h]

/-- **The wire format is read as it is written.** A record whose addresses are ones that can be read is
read as it was from the text it is written as. What was read from any text is such a record, so that it
is read again, after it is written, as what it was. -/
theorem round_trips (k : Kind) :
    (∀ x, (∀ a ∈ k.addresses x, ∃ s, PeerAddress.read s = .ok a) → k.decode (k.encode x) = some x) ∧
    ∀ text x, k.decode text = some x → k.decode (k.encode x) = some x := by
  constructor
  · intro x h
    exact decode_encode fun a ha => PeerAddress.legible_iff.mpr (h a ha)
  · intro text x h
    obtain ⟨v, -, hv⟩ := Option.bind_eq_some_iff.mp h
    exact decode_encode (legible_of_read hv)

/-- A reply that has all it may have, and an address whose host has colons. -/
def fullInfo : GroupInfoReply where
  reply := ⟨true, some "a \"quoted\"\nline", true, some ⟨"[::1]", 9870⟩⟩
  group := .of .bootstrap [⟨⟨"h1"⟩, ⟨"h 1", 9871⟩, 4294967295⟩, .ofAddress ⟨"[::1]", 9870⟩]
  role? := some ⟨.listener, ⟨⟨"h1"⟩, ⟨"h 1", 9871⟩⟩, some ⟨⟨"h2"⟩, ⟨"[::1]", 9870⟩⟩⟩
  commitInfos := [⟨⟨⟨"h1"⟩, ⟨"h 1", 9871⟩⟩, 18446744073709551615⟩]

/-- The full reply is read as it is written, and so is a peer that was given as an array without its
priority. -/
theorem round_trips_full :
    info.decode (info.encode fullInfo) = some fullInfo ∧
      peer.decode "[\"p1\", \" h1:0986 \"]" = some ⟨⟨"p1"⟩, ⟨"h1", 986⟩, 0⟩ ∧
      peer.decode (peer.encode ⟨⟨"p1"⟩, ⟨"h1", 986⟩, 0⟩) = some ⟨⟨"p1"⟩, ⟨"h1", 986⟩, 0⟩ := by
  have hread : peer.decode "[\"p1\", \" h1:0986 \"]" = some ⟨⟨"p1"⟩, ⟨"h1", 986⟩, 0⟩ := by cbv
  have haddresses : ∀ a ∈ info.addresses fullInfo, a = ⟨"h 1", 9871⟩ ∨ a = ⟨"[::1]", 9870⟩ := by
    decide
  have hhosts : ∀ a ∈ info.addresses fullInfo, ∃ s, PeerAddress.read s = .ok a := by
    intro a ha
    rcases haddresses a ha with rfl | rfl
    · exact ⟨"h 1:9871", by cbv⟩
    · exact ⟨"[::1]:9870", by cbv⟩
  exact ⟨(round_trips info).1 fullInfo hhosts, hread, (round_trips peer).2 _ _ hread⟩

end Kind

end RaftAdmin.Wire
