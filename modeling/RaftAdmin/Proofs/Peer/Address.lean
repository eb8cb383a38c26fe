import RaftAdmin.Peer.Address
import RaftAdmin.Proofs.Text.Numeral

/-!
# Addresses as texts

An address that was read once is read again from its own text. Not every address is: a host that is
empty or starts with a blank is never read, because a text is trimmed before it is cut.

## What is proved

* `read_eq_ok_iff` — a trimmed text is cut at its last colon.
* `read_text` — the text of a legible address is read as this address.
* **`legible_iff`** — the legible addresses are those that some text is read as.
-/

namespace RaftAdmin.PeerAddress

variable {a : PeerAddress} {s : String}

/-- The host has a first character, and this is no blank. -/
def Legible (a : PeerAddress) : Prop :=
  ∃ c cs, a.host.toList = c :: cs ∧ Text.isBlank c = false

theorem toList_text (a : PeerAddress) :
    a.text.toList = a.host.toList ++ ':' :: Text.digits a.port.toNat := by
  simp [text, Text.numeral]

/-- A text is read as the host before its last colon and the port after it. -/
theorem read_eq_ok_iff :
    read s = .ok a ↔ ∃ port, Text.trimChars s.toList = a.host.toList ++ ':' :: port ∧
      ':' ∉ port ∧ a.host.toList ≠ [] ∧ Text.readNat? 65536 port = some a.port.toNat := by
  unfold read readTrimmed
  constructor
  · intro h
    cases hcut : Text.cutLast (· == ':') (Text.trimChars s.toList) with
    | none => simp [hcut] at h
    | some parts =>
      obtain ⟨host, port⟩ := parts
      obtain ⟨colon, hcolon, htrim⟩ := Text.exists_of_cutLast hcut
      obtain rfl : colon = ':' := by simpa using hcolon
      cases host with
      | nil => simp [hcut] at h
      | cons c cs =>
        cases hport : Text.readNat? 65536 port with
        | none => simp [hcut, hport] at h
        | some n =>
          simp only [hcut, hport, List.isEmpty_cons, Bool.false_eq_true, if_false,
            Except.ok.injEq] at h
          subst h
          have hbound : n < 65536 := by simpa using (Option.filter_eq_some_iff.mp hport).2
          refine ⟨port, by rw [htrim, String.toList_ofList], fun hmem => ?_, by simp, ?_⟩
          · simpa using Text.not_sep_of_cutLast hcut ':' hmem
          · rw [hport, UInt16.toNat_ofNat', Nat.mod_eq_of_lt hbound]
  · rintro ⟨port, htrim, hport, hhost, hnumber⟩
    have hcut : Text.cutLast (· == ':') (Text.trimChars s.toList)
        = some (a.host.toList, port) := by
      rw [htrim]
      refine Text.cutLast_append (by rfl) fun d hd => ?_
      exact beq_eq_false_iff_ne.mpr fun heq => hport (heq ▸ hd)
    simp [hcut, hhost, hnumber]

/-- The text of a legible address neither starts nor ends with a blank. -/
theorem trimChars_text (h : a.Legible) : Text.trimChars a.text.toList = a.text.toList := by
  obtain ⟨c, cs, hhost, hc⟩ := h
  rw [toList_text, List.append_cons]
  exact Text.trimChars_append_digits (by simpa [hhost] using hc) _

/-- The text of a legible address is read as this address. -/
theorem read_text (h : a.Legible) : read a.text = .ok a := by
  refine read_eq_ok_iff.mpr ⟨Text.digits a.port.toNat, ?_, fun hmem => ?_, ?_, ?_⟩
  · rw [trimChars_text h, toList_text]
  · exact absurd (Text.isDigit_of_mem_digits hmem) (by decide)
  · obtain ⟨c, cs, hhost, -⟩ := h
    simp [hhost]
  · exact Text.readNat?_digits a.port.toNat_lt

theorem legible_of_read (h : read s = .ok a) : a.Legible := by
  obtain ⟨port, htrim, -, hhost, -⟩ := read_eq_ok_iff.mp h
  obtain ⟨c, cs, hcs⟩ := List.exists_cons_of_ne_nil hhost
  exact ⟨c, cs, hcs, Text.head?_trimChars (by rw [htrim, hcs]; rfl)⟩

/-- **What can be read.** An address is legible exactly if some text is read as it. -/
theorem legible_iff : a.Legible ↔ ∃ s, read s = .ok a :=
  ⟨fun h => ⟨a.text, read_text h⟩, fun ⟨_, h⟩ => legible_of_read h⟩

end RaftAdmin.PeerAddress
