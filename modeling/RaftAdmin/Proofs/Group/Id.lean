import RaftAdmin.Group.Id

/-!
# Group ids as texts

A group id is read from its hyphenated form, which is the one that is written.

## What is proved

* `dropHyphens?_hyphenate` — the hyphens stand where they are looked for.
* **`read_text`** — the text of an id is read as this id.
-/

namespace RaftAdmin

/-- The length in bytes of a text of characters that take one byte each. -/
theorem Text.byteLength_of_ascii {cs : List Char} (h : ∀ c ∈ cs, c.utf8Size = 1) :
    byteLength cs = cs.length := by
  induction cs with
  | nil => rfl
  | cons c cs ih =>
    obtain ⟨hc, hcs⟩ := List.forall_mem_cons.mp h
    rw [byteLength, hc, ih hcs, List.length_cons, Nat.add_comm]

namespace GroupId

theorem hexDigit?_digitChar : ∀ d : Fin 16, hexDigit? (digitChar d) = some d := by decide

theorem utf8Size_digitChar : ∀ d : Fin 16, (digitChar d).utf8Size = 1 := by decide

theorem mapM_hexDigit? (ds : List (Fin 16)) : (ds.map digitChar).mapM hexDigit? = some ds := by
  induction ds with
  | nil => rfl
  | cons d ds ih => simp [hexDigit?_digitChar, ih]

theorem ofHex?_digits (id : GroupId) : ofHex? (id.digits.map digitChar) = some id := by
  rw [ofHex?, mapM_hexDigit?]
  exact dif_pos id.length_digits

variable {cs : List Char}

/-- Thirty-two digits fall into the five groups of an id. -/
theorem exists_groups (h : cs.length = 32) :
    ∃ v w x y z : List Char, cs = v ++ (w ++ (x ++ (y ++ z))) ∧ v.length = 8 ∧ w.length = 4 ∧
      x.length = 4 ∧ y.length = 4 ∧ z.length = 12 := by
  refine ⟨cs.take 8, (cs.drop 8).take 4, (cs.drop 12).take 4, (cs.drop 16).take 4, cs.drop 20, ?_⟩
  refine ⟨?_, by simp [h], by simp [h], by simp [h], by simp [h], by simp [h]⟩
  have hy := List.take_append_drop 4 (cs.drop 16)
  have hx := List.take_append_drop 4 (cs.drop 12)
  have hw := List.take_append_drop 4 (cs.drop 8)
  have hv := List.take_append_drop 8 cs
  rw [List.drop_drop] at hw hx hy
  rw [hy, hx, hw, hv]

theorem hyphenate_append {v w x y z : List Char} (hv : v.length = 8) (hw : w.length = 4)
    (hx : x.length = 4) (hy : y.length = 4) : hyphenate (v ++ (w ++ (x ++ (y ++ z))))
      = v ++ '-' :: (w ++ '-' :: (x ++ '-' :: (y ++ '-' :: z))) := by
  simp [hyphenate, List.drop_append, hv, hw, hx, hy, List.drop_eq_nil_of_le]

/-- The hyphens stand where they are looked for. -/
theorem dropHyphens?_hyphenate (h : cs.length = 32) : dropHyphens? (hyphenate cs) = some cs := by
  obtain ⟨v, w, x, y, z, rfl, hv, hw, hx, hy, -⟩ := exists_groups h
  have hform := hyphenate_append (z := z) hv hw hx hy
  rw [hform, dropHyphens?]
  simp [List.drop_append, hv, hw, hx, hy, List.drop_eq_nil_of_le, hform]

theorem length_hyphenate (h : cs.length = 32) : (hyphenate cs).length = 36 := by
  simp [hyphenate, h]

theorem utf8Size_of_mem_hyphenate {c : Char} {ds : List (Fin 16)}
    (h : c ∈ hyphenate (ds.map digitChar)) : c.utf8Size = 1 := by
  have hdigit : ∀ d ∈ ds.map digitChar, d.utf8Size = 1 := by
    intro d hd
    obtain ⟨n, -, rfl⟩ := List.mem_map.mp hd
    exact utf8Size_digitChar n
  have hhyphen : '-'.utf8Size = 1 := by decide
  simp only [hyphenate, List.mem_append, List.mem_cons] at h
  rcases h with h | rfl | h | rfl | h | rfl | h | rfl | h
  · exact hdigit c (List.mem_of_mem_take h)
  · exact hhyphen
  · exact hdigit c (List.mem_of_mem_drop (List.mem_of_mem_take h))
  · exact hhyphen
  · exact hdigit c (List.mem_of_mem_drop (List.mem_of_mem_take h))
  · exact hhyphen
  · exact hdigit c (List.mem_of_mem_drop (List.mem_of_mem_take h))
  · exact hhyphen
  · exact hdigit c (List.mem_of_mem_drop h)

/-- **The text of an id is read as this id.** -/
theorem read_text (id : GroupId) : read id.text = .ok id := by
  have hlength : (id.digits.map digitChar).length = 32 := by simp [id.length_digits]
  have hascii : ∀ c ∈ hyphenate (id.digits.map digitChar), c.utf8Size = 1 := fun c hc =>
    utf8Size_of_mem_hyphenate hc
  have hform : Form.of (hyphenate (id.digits.map digitChar))
      = .hyphenated (hyphenate (id.digits.map digitChar)) := by
    rw [Form.of, Text.byteLength_of_ascii hascii, length_hyphenate hlength]
    rfl
  rw [read, text, String.toList_ofList, readChars, hform]
  simp only [ofHyphenated?, dropHyphens?_hyphenate hlength, ofHex?_digits]

end GroupId

end RaftAdmin
