import RaftAdmin.Proofs.Text.Bytes
import RaftAdmin.Proofs.Text.Split
import RaftAdmin.Text.System
import Mathlib.Tactic.IntervalCases

/-!
# Texts of the system are bytes

A text of the system is a sequence of bytes and nothing else, whether it is a text or not: what it
is cut into, what it starts with and what is shown of it depend on the bytes alone.

## What is proved

* `bytes_ofBytes`, `ofBytes_bytes` — texts of the system and sequences of bytes are the same.
* `isValidUTF8_bytes_append_iff` — a text in front does not make a text of what is none.
* `bytes_splitAt`, `bytes_cutFirst`, `bytes_cutLast`, `dropFirst?_eq_some_iff` — characters in ASCII
  are found in the bytes.
* `pieces_encode` — the bytes of a character are read as this character.
* `showBytes_bytes` — the bytes of a text are shown as the text.
-/

namespace RaftAdmin.OsText

open Text (Marks)

variable {bs : List UInt8} {c sep : Char}

/-- The bytes of a text of the system. -/
def bytes : OsText → List UInt8
  | text s => Text.bytes s
  | raw bytes _ => bytes

theorem bytes_text (s : String) : (text s).bytes = s.toList.flatMap String.utf8EncodeChar :=
  Text.bytes_eq_flatMap s

theorem bytes_raw (h : ¬ bs.toByteArray.IsValidUTF8) : (raw bs h).bytes = bs := rfl

theorem bytes_ofChars (cs : List Char) : (ofChars cs).bytes = cs.flatMap String.utf8EncodeChar := by
  rw [ofChars, bytes_text, String.toList_ofList]

theorem bytes_comp_ofChars : bytes ∘ ofChars = List.flatMap String.utf8EncodeChar :=
  funext bytes_ofChars

theorem toByteArray_bytes (s : String) : (Text.bytes s).toByteArray = s.toByteArray := by
  rw [Text.bytes_eq_flatMap, ← String.utf8Encode_toList, List.utf8Encode]

theorem ofBytes_bytes (w : OsText) : ofBytes w.bytes = w := by
  cases w with
  | text s =>
    have hvalid : (Text.bytes s).toByteArray.IsValidUTF8 := toByteArray_bytes s ▸ s.isValidUTF8
    rw [bytes, ofBytes, dif_pos hvalid, text.injEq, ← String.toByteArray_inj]
    exact toByteArray_bytes s
  | raw bytes h => exact dif_neg h

theorem bytes_ofBytes (bs : List UInt8) : (ofBytes bs).bytes = bs := by
  unfold ofBytes
  split
  · exact List.toList_data_toByteArray
  · rfl

theorem bytes_comp_ofBytes : bytes ∘ ofBytes = id := funext bytes_ofBytes

theorem bytes_injective : Function.Injective bytes :=
  Function.LeftInverse.injective ofBytes_bytes

/-- Bytes that are no text. -/
theorem ofBytes_of_not (h : ¬ bs.toByteArray.IsValidUTF8) : ofBytes bs = .raw bs h := dif_neg h

theorem isValidUTF8_encode_append_iff :
    (String.utf8EncodeChar c ++ bs).toByteArray.IsValidUTF8 ↔ bs.toByteArray.IsValidUTF8 := by
  have hc : (String.utf8EncodeChar c).toByteArray = [c].utf8Encode := by
    rw [List.utf8Encode, List.flatMap_singleton]
  rw [List.toByteArray_append, hc, ByteArray.isValidUTF8_utf8Encode_singleton_append_iff]

/-- A text in front does not make a text of what is none. -/
theorem isValidUTF8_bytes_append_iff {s : String} :
    (Text.bytes s ++ bs).toByteArray.IsValidUTF8 ↔ bs.toByteArray.IsValidUTF8 := by
  rw [Text.bytes_eq_flatMap]
  induction s.toList with
  | nil => rfl
  | cons c cs ih => rw [List.flatMap_cons, List.append_assoc, isValidUTF8_encode_append_iff, ih]

/-! ### Parts -/

/-- An ASCII character is its byte. -/
theorem encode_of_ascii (h : c.toNat < 128) : String.utf8EncodeChar c = [byteOf c] :=
  String.utf8EncodeChar_eq_singleton (Char.utf8Size_eq_one_iff.mpr (Nat.le_of_lt_succ h))

theorem toNat_byteOf (h : c.toNat < 128) : (byteOf c).toNat = c.toNat := by
  rw [byteOf, UInt32.toNat_toUInt8]
  exact Nat.mod_eq_of_lt (h.trans (by decide))

/-- The bytes of any other character are outside of ASCII. -/
theorem le_of_mem_encode (h : 128 ≤ c.toNat) : ∀ b ∈ String.utf8EncodeChar c, 128 ≤ b.toNat := by
  have hmax := Text.toNat_le_of_char c
  unfold String.utf8EncodeChar
  simp only [Char.toNat_val]
  generalize c.toNat = n at *
  split_ifs <;>
    simp only [List.forall_mem_cons, List.not_mem_nil, false_implies, implies_true, and_true,
      UInt8.toNat_ofNat'] <;>
    omega

/-- An ASCII character is found in a text by its byte. -/
theorem marks_encode (hsep : sep.toNat < 128) :
    Marks (· == sep) (· == byteOf sep) String.utf8EncodeChar where
  mark c hc := ⟨byteOf sep, by rw [eq_of_beq hc, encode_of_ascii hsep], beq_self_eq_true _⟩
  plain c hc b hb := by
    have hne : c ≠ sep := ne_of_beq_false hc
    refine beq_false_of_ne fun heq => hne ?_
    subst heq
    rcases Nat.lt_or_ge c.toNat 128 with hascii | hother
    · rw [encode_of_ascii hascii, List.mem_singleton] at hb
      have hsame := congrArg UInt8.toNat hb
      rw [toNat_byteOf hsep, toNat_byteOf hascii] at hsame
      exact Char.toNat_inj.mp hsame.symm
    · have hle := le_of_mem_encode hother _ hb
      rw [toNat_byteOf hsep] at hle
      omega

/-- Bytes are cut at the bytes of a separator, whether they are a text or not. -/
theorem bytes_splitAt (hsep : sep.toNat < 128) (w : OsText) :
    (w.splitAt sep).map bytes = Text.splitBy (· == byteOf sep) w.bytes := by
  cases w with
  | text s =>
    rw [bytes_text, (marks_encode hsep).splitBy_flatMap, splitAt, List.map_map, bytes_comp_ofChars]
  | raw bs h => rw [bytes_raw, splitAt, List.map_map, bytes_comp_ofBytes, List.map_id]

theorem bytes_cutFirst (hsep : sep.toNat < 128) (w : OsText) :
    (w.cutFirst sep).map (Prod.map bytes bytes) = Text.cutFirst (· == byteOf sep) w.bytes := by
  cases w with
  | text s =>
    rw [bytes_text, (marks_encode hsep).cutFirst_flatMap, cutFirst, Option.map_map,
      Prod.map_comp_map, bytes_comp_ofChars]
  | raw bs h =>
    rw [bytes_raw, cutFirst, Option.map_map, Prod.map_comp_map, bytes_comp_ofBytes, Prod.map_id,
      Option.map_id, id_eq]

theorem bytes_cutLast (hsep : sep.toNat < 128) (w : OsText) :
    (w.cutLast sep).map (Prod.map bytes bytes) = Text.cutLast (· == byteOf sep) w.bytes := by
  cases w with
  | text s =>
    rw [bytes_text, (marks_encode hsep).cutLast_flatMap, cutLast, Option.map_map,
      Prod.map_comp_map, bytes_comp_ofChars]
  | raw bs h =>
    rw [bytes_raw, cutLast, Option.map_map, Prod.map_comp_map, bytes_comp_ofBytes, Prod.map_id,
      Option.map_id, id_eq]

/-- Only what starts with an ASCII character is written with its byte in front. -/
theorem flatMap_encode_eq_cons_iff (hc : c.toNat < 128) {cs : List Char} {bs : List UInt8} :
    cs.flatMap String.utf8EncodeChar = byteOf c :: bs
      ↔ ∃ ds, cs = c :: ds ∧ ds.flatMap String.utf8EncodeChar = bs := by
  constructor
  · intro h
    cases cs with
    | nil => cases h
    | cons d ds =>
      obtain ⟨b, rest, hd⟩ := List.exists_cons_of_ne_nil (String.utf8EncodeChar_ne_nil (c := d))
      rw [List.flatMap_cons, hd, List.cons_append] at h
      obtain ⟨rfl, htail⟩ := List.cons.inj h
      have hdc : d = c := by
        by_contra hne
        have hplain := (marks_encode hc).plain d (beq_false_of_ne hne) (byteOf c) (by simp [hd])
        simp at hplain
      subst hdc
      rw [encode_of_ascii hc] at hd
      obtain rfl := (List.cons.inj hd).2
      exact ⟨ds, rfl, htail⟩
  · rintro ⟨ds, rfl, rfl⟩
    rw [List.flatMap_cons, encode_of_ascii hc, List.singleton_append]

/-- An ASCII character is taken from the front with its byte. -/
theorem dropFirst?_eq_some_iff (hc : c.toNat < 128) {w rest : OsText} :
    w.dropFirst? c = some rest ↔ w.bytes = byteOf c :: rest.bytes := by
  cases w with
  | text s =>
    rw [bytes_text, flatMap_encode_eq_cons_iff hc, dropFirst?, Option.map_eq_some_iff]
    simp only [Text.dropFront?_eq_some_iff, List.singleton_append, ← bytes_ofChars,
      bytes_injective.eq_iff]
  | raw bs h =>
    rw [bytes_raw]
    cases bs with
    | nil => simp [dropFirst?]
    | cons b bs =>
      rw [dropFirst?, Option.ite_none_right_eq_some, Option.some.injEq, List.cons.injEq,
        ← bytes_injective.eq_iff, bytes_ofBytes]

/-! ### What is shown -/

theorem lead?_two {n : ℕ} (h : 2 ≤ n) (h' : n < 32) :
    lead? (UInt8.ofNat (n + 192)) = some ⟨n, 1, 0x80, 0xBF⟩ := by
  interval_cases n <;> rfl

theorem lead?_three {n : ℕ} (h : n < 16) :
    lead? (UInt8.ofNat (n + 224))
      = some ⟨n, 2, if n = 0 then 0xA0 else 0x80, if n = 13 then 0x9F else 0xBF⟩ := by
  interval_cases n <;> rfl

theorem lead?_four {n : ℕ} (h : n < 5) :
    lead? (UInt8.ofNat (n + 240))
      = some ⟨n, 3, if n = 0 then 0x90 else 0x80, if n = 4 then 0x8F else 0xBF⟩ := by
  interval_cases n <;> rfl

theorem toNat_ofNat_add {n m : ℕ} (h : n + m < 256) : (UInt8.ofNat (n + m)).toNat = n + m := by
  rw [UInt8.toNat_ofNat', Nat.mod_eq_of_lt h]

/-- A byte outside of ASCII begins a character. -/
theorem pieces_lead {p : Partial} {b : UInt8} (hb : 0x80 ≤ b) (h : lead? b = some p) :
    pieces none (b :: bs) = pieces (some p) bs := by
  have hfirst : readFirst b = ([], some p) := by
    rw [readFirst, if_neg (UInt8.not_lt.mpr hb), h]
  rw [pieces, Option.map_none, Option.getD_none, hfirst]
  rfl

theorem readNext_digit {p : Partial} {n : ℕ} (hn : n < 64) (hlow : p.low.toNat ≤ n + 128)
    (hhigh : n + 128 ≤ p.high.toNat) :
    readNext p (UInt8.ofNat (n + 128))
      = if p.missing = 1 then ([some (Char.ofNat (p.value * 64 + n))], none)
        else ([], some ⟨p.value * 64 + n, p.missing - 1, 0x80, 0xBF⟩) := by
  have hbyte := toNat_ofNat_add (n := n) (m := 128) (by omega)
  rw [readNext, if_pos ?_, hbyte]
  · simp
  · rw [UInt8.le_iff_toNat_le, UInt8.le_iff_toNat_le, hbyte]
    exact ⟨hlow, hhigh⟩

theorem pieces_digit {value missing n : ℕ} {low high : UInt8} (hn : n < 64)
    (hlow : low.toNat ≤ n + 128) (hhigh : n + 128 ≤ high.toNat) :
    pieces (some ⟨value, missing + 2, low, high⟩) (UInt8.ofNat (n + 128) :: bs)
      = pieces (some ⟨value * 64 + n, missing + 1, 0x80, 0xBF⟩) bs := by
  rw [pieces, Option.map_some, Option.getD_some, readNext_digit hn hlow hhigh,
    if_neg (by simp)]
  rfl

theorem pieces_last {value n : ℕ} {low high : UInt8} (hn : n < 64)
    (hlow : low.toNat ≤ n + 128) (hhigh : n + 128 ≤ high.toNat) :
    pieces (some ⟨value, 1, low, high⟩) (UInt8.ofNat (n + 128) :: bs)
      = some (Char.ofNat (value * 64 + n)) :: pieces none bs := by
  rw [pieces, Option.map_some, Option.getD_some, readNext_digit hn hlow hhigh, if_pos rfl]
  rfl

theorem le_lead {n m : ℕ} (h : n + m < 256) (hm : 128 ≤ m) : 0x80 ≤ UInt8.ofNat (n + m) := by
  rw [UInt8.le_iff_toNat_le, toNat_ofNat_add h]
  exact hm.trans (Nat.le_add_left m n)

theorem pieces_one {n : ℕ} (hn : n < 128) :
    pieces none (UInt8.ofNat n :: bs) = some (Char.ofNat n) :: pieces none bs := by
  have hbyte : (UInt8.ofNat n).toNat = n := toNat_ofNat_add (m := 0) (by omega)
  have hascii : UInt8.ofNat n < 0x80 := by
    rw [UInt8.lt_iff_toNat_lt, hbyte]
    exact hn
  rw [pieces, Option.map_none, Option.getD_none, readFirst, if_pos hascii, hbyte]
  rfl

/-- One byte would not do. -/
theorem pieces_two {m n : ℕ} (hlong : 2 ≤ m) (hm : m < 32) (hn : n < 64) :
    pieces none (UInt8.ofNat (m + 192) :: UInt8.ofNat (n + 128) :: bs)
      = some (Char.ofNat (m * 64 + n)) :: pieces none bs := by
  rw [pieces_lead (le_lead (by omega) (by omega)) (lead?_two hlong hm),
    pieces_last hn (by simp) (by simp; omega)]

/-- Two bytes would not do, and the character is no surrogate. -/
theorem pieces_three {l m n : ℕ} (hl : l < 16) (hm : m < 64) (hn : n < 64)
    (hlong : l = 0 → 32 ≤ m) (hscalar : l = 13 → m < 32) :
    pieces none (UInt8.ofNat (l + 224) :: UInt8.ofNat (m + 128) :: UInt8.ofNat (n + 128) :: bs)
      = some (Char.ofNat ((l * 64 + m) * 64 + n)) :: pieces none bs := by
  have hlow : (if l = 0 then 0xA0 else 0x80 : UInt8).toNat ≤ m + 128 := by
    split_ifs <;> simp; omega
  have hhigh : m + 128 ≤ (if l = 13 then 0x9F else 0xBF : UInt8).toNat := by
    split_ifs <;> simp <;> omega
  rw [pieces_lead (le_lead (by omega) (by omega)) (lead?_three hl), pieces_digit hm hlow hhigh,
    pieces_last hn (by simp) (by simp; omega)]

/-- Three bytes would not do, and the character is in range. -/
theorem pieces_four {k l m n : ℕ} (hk : k < 5) (hl : l < 64) (hm : m < 64) (hn : n < 64)
    (hlong : k = 0 → 16 ≤ l) (hscalar : k = 4 → l < 16) :
    pieces none (UInt8.ofNat (k + 240) :: UInt8.ofNat (l + 128) :: UInt8.ofNat (m + 128)
        :: UInt8.ofNat (n + 128) :: bs)
      = some (Char.ofNat (((k * 64 + l) * 64 + m) * 64 + n)) :: pieces none bs := by
  have hlow : (if k = 0 then 0x90 else 0x80 : UInt8).toNat ≤ l + 128 := by
    split_ifs <;> simp; omega
  have hhigh : l + 128 ≤ (if k = 4 then 0x8F else 0xBF : UInt8).toNat := by
    split_ifs <;> simp <;> omega
  rw [pieces_lead (le_lead (by omega) (by omega)) (lead?_four hk), pieces_digit hl hlow hhigh,
    pieces_digit hm (by simp) (by simp; omega), pieces_last hn (by simp) (by simp; omega)]

/-- The bytes of a character are read as this character. -/
theorem pieces_encode (c : Char) (bs : List UInt8) :
    pieces none (String.utf8EncodeChar c ++ bs) = some c :: pieces none bs := by
  have hvalid : c.toNat < 0xd800 ∨ 0xdfff < c.toNat ∧ c.toNat < 0x110000 := c.valid
  have hc := Char.ofNat_toNat c
  unfold String.utf8EncodeChar
  simp only [Char.toNat_val]
  generalize c.toNat = n at *
  -- the bytes hold the digits of the number in base 64, and there is one case for each length
  split_ifs with h₁ h₂ h₃ <;> simp only [List.cons_append, List.nil_append]
  · rw [pieces_one (Nat.lt_succ_of_le h₁), hc]
  · have hn : n / 64 % 32 * 64 + n % 64 = n := by omega
    rw [pieces_two (by omega) (by omega) (by omega), hn, hc]
  · have hn : (n / 4096 % 16 * 64 + n / 64 % 64) * 64 + n % 64 = n := by omega
    rw [pieces_three (by omega) (by omega) (by omega) (by omega) (by omega), hn, hc]
  · have hn : ((n / 262144 % 8 * 64 + n / 4096 % 64) * 64 + n / 64 % 64) * 64 + n % 64 = n := by
      omega
    rw [pieces_four (by omega) (by omega) (by omega) (by omega) (by omega) (by omega), hn, hc]

theorem pieces_bytes (s : String) : pieces none (Text.bytes s) = s.toList.map some := by
  rw [Text.bytes_eq_flatMap]
  induction s.toList with
  | nil => rfl
  | cons c cs ih => rw [List.flatMap_cons, pieces_encode, ih, List.map_cons]

theorem head?_pieces_bytes (w : OsText) : (pieces none w.bytes).head? = w.firstPiece? := by
  cases w with
  | text s =>
    rw [bytes, pieces_bytes, List.head?_map]
    rfl
  | raw bs h => rfl

/-- The bytes of a text are shown as the text. -/
theorem showBytes_bytes (w : OsText) : showBytes w.bytes = w.shown := by
  cases w with
  | text s =>
    have hchars : (s.toList.map some).map (fun piece => piece.getD '\uFFFD') = s.toList := by
      rw [List.map_map]
      exact List.map_id _
    rw [showBytes, bytes, pieces_bytes, hchars, String.ofList_toList, shown]
  | raw bs h => rfl

end RaftAdmin.OsText
