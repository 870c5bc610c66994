import Mathlib.Data.String.Basic

/-!
# Texts by their bytes

Names are compared character by character, and an engine or a file that compares them byte by
byte puts them in the same order (`bytes_strictMono`).  A character is written in one to four
bytes: the first says how many follow, and each of those holds six binary digits.  A character
of more bytes starts with a greater one (`lead_lt_mark`), and among characters of as many
bytes the digits decide, the highest first (`place_append_lt`).
-/

namespace Reconcile.Text

/-- The bytes that a text is stored as. -/
def bytes (s : String) : List Nat :=
  s.toUTF8.data.toList.map UInt8.toNat

/-- What is added to the first byte of a character, by how many bytes follow it. -/
def mark : Nat → Nat
  | 0 => 0
  | 1 => 0xc0
  | 2 => 0xe0
  | _ => 0xf0

/-- A number in `width` digits of six bits and what stands in front of them. -/
def place (first : Nat) : Nat → Nat → List Nat
  | 0, v => [v + first]
  | width + 1, v => place first width (v / 64) ++ [v % 64 + 0x80]

/-- How many bytes follow the first one of a character. -/
def width (v : Nat) : Nat :=
  if v ≤ 0x7f then 0 else if v ≤ 0x7ff then 1 else if v ≤ 0xffff then 2 else 3

def charBytes (c : Char) : List Nat :=
  place (mark (width c.toNat)) (width c.toNat) c.toNat

theorem toNat_utf8EncodeChar (c : Char) :
    (String.utf8EncodeChar c).map UInt8.toNat = charBytes c := by
  have hbound : c.toNat < 0x110000 := by
    rcases c.valid with h | h
    · exact h.trans (by decide)
    · exact h.2
  have hval : c.val.toNat = c.toNat := rfl
  unfold String.utf8EncodeChar charBytes width
  simp only [hval]
  split
  · simp [place, mark]
    omega
  · split
    · simp [place, mark]
      omega
    · split
      · simp [place, mark]
        omega
      · simp [place, mark]
        omega

theorem bytes_eq (s : String) : bytes s = s.toList.flatMap charBytes := by
  have hencode : s.toUTF8 = (s.toList.flatMap String.utf8EncodeChar).toByteArray :=
    String.utf8Encode_toList.symm
  rw [bytes, hencode, List.data_toByteArray, List.map_flatMap]
  exact List.flatMap_congr fun c _ => toNat_utf8EncodeChar c

/-! ## Characters -/

theorem exists_place_eq_cons (first w v : Nat) :
    ∃ rest, place first w v = (v / 64 ^ w + first) :: rest := by
  induction w generalizing v with
  | zero => exact ⟨[], by simp [place]⟩
  | succ w ih =>
      obtain ⟨rest, hrest⟩ := ih (v / 64)
      refine ⟨rest ++ [v % 64 + 0x80], ?_⟩
      rw [place, hrest, Nat.div_div_eq_div_mul, pow_succ']
      rfl

/-- Among numbers in as many digits the greater one has the greater digits. -/
theorem place_append_lt {v w : Nat} (first n : Nat) (h : v < w) (rest rest' : List Nat) :
    place first n v ++ rest < place first n w ++ rest' := by
  induction n generalizing v w rest rest' with
  | zero =>
      apply List.Lex.rel
      omega
  | succ n ih =>
      rw [place, place, List.append_assoc, List.append_assoc]
      rcases (show v / 64 ≤ w / 64 by omega).lt_or_eq with hhigh | hhigh
      · exact ih hhigh _ _
      · rw [hhigh]
        apply List.Lex.append_left
        apply List.Lex.rel
        omega

/-- A character of more bytes starts with a greater one. -/
theorem lead_lt_mark {v w : Nat} (h : width v < width w) :
    v / 64 ^ width v + mark (width v) < mark (width w) := by
  unfold width at *
  split_ifs at * <;> simp [mark] at * <;> omega

theorem charBytes_append_lt {c d : Char} (h : c < d) (rest rest' : List Nat) :
    charBytes c ++ rest < charBytes d ++ rest' := by
  have hlt : c.toNat < d.toNat := h
  have hwidth : width c.toNat ≤ width d.toNat := by
    unfold width
    split_ifs <;> omega
  rcases hwidth.lt_or_eq with hless | hsame
  · obtain ⟨cs, hcs⟩ := exists_place_eq_cons (mark (width c.toNat)) (width c.toNat) c.toNat
    obtain ⟨ds, hds⟩ := exists_place_eq_cons (mark (width d.toNat)) (width d.toNat) d.toNat
    rw [charBytes, charBytes, hcs, hds]
    apply List.Lex.rel
    exact (lead_lt_mark hless).trans_le (Nat.le_add_left _ _)
  · rw [charBytes, charBytes, hsame]
    exact place_append_lt _ _ hlt rest rest'

/-! ## Texts -/

theorem flatMap_charBytes_lt {cs ds : List Char} (h : cs < ds) :
    cs.flatMap charBytes < ds.flatMap charBytes := by
  induction h with
  | @nil d ds =>
      obtain ⟨rest, hrest⟩ := exists_place_eq_cons (mark (width d.toNat)) (width d.toNat) d.toNat
      rw [List.flatMap_nil, List.flatMap_cons, charBytes, hrest]
      exact List.Lex.nil
  | rel hcd =>
      rw [List.flatMap_cons, List.flatMap_cons]
      exact charBytes_append_lt hcd _ _
  | cons _ ih =>
      rw [List.flatMap_cons, List.flatMap_cons]
      exact List.Lex.append_left _ ih _

/-- Texts compare as their bytes do. -/
theorem bytes_strictMono : StrictMono bytes := by
  intro s t h
  rw [bytes_eq, bytes_eq]
  exact flatMap_charBytes_lt (String.lt_iff_toList_lt.mp h)

end Reconcile.Text
