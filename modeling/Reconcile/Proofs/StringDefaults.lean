import Mathlib.Data.List.Basic
import Reconcile.Proofs.Literals
import Reconcile.Proofs.Names

/-!
# Defaults that are strings

The catalog shows the default of a column of characters as the bare string, and says in its
remarks where a default is an expression instead.  So such a default should always be written
as a literal.  It is, unless the string reads like a keyword: the text is looked at before the
type of the column, and a string that says NULL, or begins like the current time, is taken for
the keyword (`default_literal_iff`).  The column then defaults to NULL, or to a call, where its
default was a string (`default_null_bare`).

Different strings stay different all the same.  A literal begins with a quote and no keyword
does, so nothing that is left bare can be mistaken for a literal (`columnDefault_inj`).
-/

namespace Reconcile

namespace Text

/-! ## Capitals -/

theorem toNat_toUpper (c : Char) :
    c.toUpper.toNat = if 97 ≤ c.toNat ∧ c.toNat ≤ 122 then c.toNat - 32 else c.toNat := by
  have hval : c.val.toNat = c.toNat := rfl
  unfold Char.toUpper
  split
  case isTrue h =>
    obtain ⟨hlow, hhigh⟩ := h
    simp only [UInt32.le_iff_toNat_le, Char.reduceVal, UInt32.reduceToNat, hval] at hlow hhigh
    have hshift : (c.val + ('A'.val - 'a'.val)).toNat = c.toNat - 32 := by
      simp only [Char.reduceVal, UInt32.reduceSub, UInt32.toNat_add, UInt32.reduceToNat, hval]
      omega
    rw [if_pos ⟨hlow, hhigh⟩]
    exact hshift
  case isFalse h =>
    rw [if_neg]
    simpa [UInt32.le_iff_toNat_le, hval] using h

theorem toNat_toLower (c : Char) :
    c.toLower.toNat = if 65 ≤ c.toNat ∧ c.toNat ≤ 90 then c.toNat + 32 else c.toNat := by
  have hval : c.val.toNat = c.toNat := rfl
  unfold Char.toLower
  split
  case isTrue h =>
    obtain ⟨hlow, hhigh⟩ := h
    simp only [ge_iff_le, UInt32.le_iff_toNat_le, Char.reduceVal, UInt32.reduceToNat,
      hval] at hlow hhigh
    have hshift : (c.val + ('a'.val - 'A'.val)).toNat = c.toNat + 32 := by
      simp only [Char.reduceVal, UInt32.reduceSub, UInt32.toNat_add, UInt32.reduceToNat, hval]
      omega
    rw [if_pos ⟨hlow, hhigh⟩]
    exact hshift
  case isFalse h =>
    rw [if_neg]
    simpa [UInt32.le_iff_toNat_le, hval] using h

theorem toUpper_eq_iff {x : Char} (hx : 'A' ≤ x ∧ x ≤ 'Z') (c : Char) :
    c.toUpper = x ↔ c.toLower = x.toLower := by
  have hbounds : 65 ≤ x.toNat ∧ x.toNat ≤ 90 := by
    simpa [Char.le_def, UInt32.le_iff_toNat_le] using hx
  rw [← Char.toNat_inj, ← Char.toNat_inj, toNat_toUpper, toNat_toLower, toNat_toLower,
    if_pos hbounds]
  split <;> split <;> omega

/-- Where the upper-case form of a character is not its ASCII capital, it begins with S, I or F,
and the character is none of the letters. -/
theorem upperForm_cases (c : Char) :
    upperForm c = [c.toUpper]
      ∨ 'Z' < c.toUpper ∧ ∃ x ∈ ['S', 'I', 'F'], ∃ more, upperForm c = x :: more := by
  have hc : c = Char.ofNat c.toNat := (Char.ofNat_toNat c).symm
  unfold upperForm
  split
  case h_11 => exact Or.inl rfl
  all_goals
    rename_i h
    rw [h] at hc
    subst hc
    exact Or.inr ⟨by decide, by simp⟩

/-- A word in capitals without S, I and F is the upper case of a text just if the two are the
same with the case of ASCII letters ignored. -/
theorem flatMap_upperForm_eq_iff {word : List Char}
    (hword : ∀ x ∈ word, ('A' ≤ x ∧ x ≤ 'Z') ∧ x ∉ ['S', 'I', 'F']) (cs : List Char) :
    cs.flatMap upperForm = word ↔ cs.map Char.toLower = word.map Char.toLower := by
  induction cs generalizing word with
  | nil => simp [eq_comm]
  | cons c cs ih =>
      cases word with
      | nil => rcases upperForm_cases c with h | ⟨-, x, -, more, h⟩ <;> simp [h]
      | cons x word =>
          obtain ⟨hx, hword⟩ := List.forall_mem_cons.mp hword
          rcases upperForm_cases c with h | ⟨hc, y, hy, more, h⟩
          · simp [h, ih hword, toUpper_eq_iff hx.1]
          · have hne : c.toUpper ≠ x := by
              rintro rfl
              exact absurd hc (by simpa using hx.1.2)
            have hyx : y ≠ x := fun heq => hx.2 (heq ▸ hy)
            simp [h, hyx, ← toUpper_eq_iff hx.1, hne]

theorem lowerForm_of_ascii {c : Char} (hc : c.toLower < '\x7f') : lowerForm c = [c.toLower] := by
  have hof : c = Char.ofNat c.toNat := (Char.ofNat_toNat c).symm
  unfold lowerForm
  split
  case h_3 => rfl
  all_goals
    rename_i h
    rw [h] at hof
    subst hof
    exact absurd hc (by decide)

theorem lowerChars_of_ascii {s : String} {word : List Char}
    (h : s.toList.map Char.toLower = word) (hword : ∀ c ∈ word, c < '\x7f') :
    lowerChars s = word := by
  subst h
  rw [List.forall_mem_map] at hword
  rw [lowerChars, List.flatMap_congr fun c hc => lowerForm_of_ascii (hword c hc),
    List.map_eq_flatMap]

end Text

namespace MySql

/-- The types whose values are strings. -/
def isCharacterType (dataType : String) : Bool :=
  ["char", "varchar", "tinytext", "text", "mediumtext", "longtext", "enum", "set"].any
    fun t => Text.lowerChars dataType == t.toList

/-- The string says NULL, or begins like the current time, in letters of either case. -/
def ReadsAsKeyword (value : String) : Prop :=
  Text.sameFolded value "NULL" = true ∨ "CURRENT_TIMESTAMP".toList <+: Text.upperChars value

instance (value : String) : Decidable (ReadsAsKeyword value) :=
  inferInstanceAs (Decidable (_ ∨ _))

/-- A column of characters whose default is no expression. -/
structure ColumnRow.HoldsStrings (r : ColumnRow) : Prop where
  characters : isCharacterType r.dataType = true
  noExpression : remarks r.extra "default_generated" = false

variable {r r' : ColumnRow} {dataType extra value value' : String}

/-! ## What a default becomes -/

theorem readsAsKeyword_iff :
    ReadsAsKeyword value
      ↔ ("CURRENT_TIMESTAMP".toList.isPrefixOf (Text.upperChars value)
          || Text.upperChars value == "NULL".toList) = true := by
  have hnull : Text.upperChars value = "NULL".toList ↔ Text.sameFolded value "NULL" = true := by
    rw [Text.upperChars, Text.flatMap_upperForm_eq_iff (by simp), Text.sameFolded,
      beq_iff_eq]
  rw [Bool.or_eq_true, List.isPrefixOf_iff_prefix, beq_iff_eq, hnull, ReadsAsKeyword, or_comm]

theorem isNumericType_of_isCharacterType (h : isCharacterType dataType = true) :
    isNumericType dataType = false := by
  simp only [isCharacterType, List.any_eq_true, beq_iff_eq] at h
  obtain ⟨t, ht, heq⟩ := h
  rw [isNumericType, heq]
  clear heq
  revert t
  decide

theorem not_bit_of_isCharacterType (h : isCharacterType dataType = true) :
    Text.sameFolded dataType "bit" = false := by
  rw [← Bool.not_eq_true]
  intro hbit
  have hlower : Text.lowerChars dataType = ['b', 'i', 't'] :=
    Text.lowerChars_of_ascii (eq_of_beq hbit) (by simp)
  rw [isCharacterType, hlower] at h
  revert h
  decide

theorem ColumnRow.HoldsStrings.stringDefault (hr : r.HoldsStrings)
    (hvalue : ¬ ReadsAsKeyword value) : StringDefault r.dataType r.extra value := by
  rw [readsAsKeyword_iff, Bool.or_eq_true, List.isPrefixOf_iff_prefix, beq_iff_eq,
    not_or] at hvalue
  have hbit := not_bit_of_isCharacterType hr.characters
  exact ⟨hvalue.1, hvalue.2, hr.noExpression, isNumericType_of_isCharacterType hr.characters,
    by simp [hbit]⟩

theorem columnDefault_of_keyword (h : ReadsAsKeyword value) :
    columnDefault dataType extra value = value := by
  rw [readsAsKeyword_iff] at h
  simp only [columnDefault, h, if_true]

/-- What reads as a keyword is not empty and does not begin with a quote. -/
theorem head_of_readsAsKeyword (h : ReadsAsKeyword value) :
    ∃ c cs, value.toList = c :: cs ∧ c ≠ '\x27' := by
  rw [readsAsKeyword_iff, Text.upperChars] at h
  cases hvalue : value.toList with
  | nil => simp [hvalue] at h
  | cons c cs =>
      refine ⟨c, cs, rfl, ?_⟩
      rintro rfl
      simp [hvalue, Text.upperForm] at h

/-- A literal and a keyword differ in their first characters, whatever follows them. -/
theorem literal_append_ne_of_readsAsKeyword (h : ReadsAsKeyword value) (rest rest' : String) :
    Text.literal value' ++ rest ≠ value ++ rest' := by
  obtain ⟨c, cs, hvalue, hc⟩ := head_of_readsAsKeyword h
  intro heq
  have hchars := congrArg String.toList heq
  simp only [String.toList_append, Text.literal, Text.toList_enclose, Text.encloseChars,
    List.cons_append, hvalue, List.cons.injEq] at hchars
  exact hc hchars.1.symm

theorem literal_ne_of_readsAsKeyword (h : ReadsAsKeyword value) :
    Text.literal value' ≠ value := by
  simpa using literal_append_ne_of_readsAsKeyword h "" ""

theorem enclosed?_literal (value : String) :
    Text.enclosed? '\x27' '\x27' ((Text.literal value).toList ++ []) = some (value.toList, []) := by
  rw [Text.literal, Text.toList_enclose]
  exact Text.enclosed?_encloseChars (by simp) value.toList

theorem literal_inj : Text.literal value = Text.literal value' ↔ value = value' := by
  constructor
  · intro h
    have hread := enclosed?_literal value
    rw [h, enclosed?_literal value', Option.some.injEq, Prod.mk.injEq] at hread
    exact String.toList_inj.mp hread.1.symm
  · rintro rfl
    rfl

theorem ColumnRow.HoldsStrings.columnDefault (hr : r.HoldsStrings) (value : String) :
    MySql.columnDefault r.dataType r.extra value
      = if ReadsAsKeyword value then value else Text.literal value := by
  split
  case isTrue h => exact columnDefault_of_keyword h
  case isFalse h => exact columnDefault_of_string (hr.stringDefault h)

/-- Whatever is left bare, no two strings become the same default. -/
theorem columnDefault_inj (hr : r.HoldsStrings) (hr' : r'.HoldsStrings) :
    columnDefault r.dataType r.extra value = columnDefault r'.dataType r'.extra value'
      ↔ value = value' := by
  rw [hr.columnDefault, hr'.columnDefault]
  split <;> split
  case isTrue.isTrue => rfl
  case isTrue.isFalse h h' =>
    exact iff_of_false (literal_ne_of_readsAsKeyword h).symm (by rintro rfl; exact h' h)
  case isFalse.isTrue h h' =>
    exact iff_of_false (literal_ne_of_readsAsKeyword h') (by rintro rfl; exact h h')
  case isFalse.isFalse => exact literal_inj

/-! ## Where a default is scripted -/

/-- The parts of a column that stand in front of its default. -/
def upToDefault (c : Column) : Column :=
  { c with default := none, identity := none, comment := none }

theorem columnDefinition_of_default (o : Options) {c : Column} {default : String}
    (h : c.default = some default) :
    ∃ rest, columnDefinition o c
      = columnDefinition o (upToDefault c) ++ " DEFAULT " ++ default ++ rest := by
  refine ⟨(if c.identity.isSome then " AUTO_INCREMENT" else "")
    ++ clause "COMMENT" (c.comment.map Text.literal), ?_⟩
  simp [columnDefinition, upToDefault, h, clause, String.append_assoc]
  rfl

/-- In a column of characters a string is the default as its literal, and is scripted so, just
if it does not read like a keyword.  One that does is the default as it stands.  Two columns have
the same default just if the catalog shows the same string for both. -/
theorem default_literal_iff (hr : r.HoldsStrings) (hr' : r'.HoldsStrings) :
    (∀ value, r.columnDefault = some value →
      (r.column.default = some (Text.literal value) ↔ ¬ ReadsAsKeyword value)
      ∧ (ReadsAsKeyword value → r.column.default = some value)
      ∧ ∀ o, (∃ rest, columnDefinition o r.column
          = columnDefinition o (upToDefault r.column) ++ " DEFAULT " ++ Text.literal value
            ++ rest)
        ↔ ¬ ReadsAsKeyword value)
    ∧ (r.column.default = r'.column.default ↔ r.columnDefault = r'.columnDefault) := by
  constructor
  · intro value hvalue
    have hdefault : r.column.default
        = some (if ReadsAsKeyword value then value else Text.literal value) := by
      simp [ColumnRow.column, hvalue, hr.columnDefault]
    by_cases h : ReadsAsKeyword value
    · rw [if_pos h] at hdefault
      refine ⟨?_, fun _ => hdefault, fun o => ?_⟩
      · simp [hdefault, h, (literal_ne_of_readsAsKeyword h).symm]
      · obtain ⟨bare, hbare⟩ := columnDefinition_of_default o hdefault
        refine iff_of_false ?_ (not_not_intro h)
        rintro ⟨rest, hrest⟩
        simp only [hbare, String.append_assoc, String.append_right_inj] at hrest
        exact literal_append_ne_of_readsAsKeyword h rest bare hrest.symm
    · rw [if_neg h] at hdefault
      exact ⟨iff_of_true hdefault h, fun hkeyword => absurd hkeyword h,
        fun o => iff_of_true (columnDefinition_of_default o hdefault) h⟩
  · simp only [ColumnRow.column]
    cases r.columnDefault <;> cases r'.columnDefault <;> simp [columnDefault_inj hr hr']

/-- A text column as the catalog shows it, with a string as its default. -/
def noteRow (default : String) : ColumnRow :=
  { columnName := "note", columnType := "varchar(9)", dataType := "varchar", isNullable := "YES"
    columnDefault := some default, characterSet := none, collation := none
    extra := "", comment := "" }

/-- One string is quoted, and the other says NULL and is not. -/
theorem default_literal_iff_note :
    (noteRow "o'clock").HoldsStrings ∧ (noteRow "Null").HoldsStrings
    ∧ (noteRow "o'clock").column.default = some "'o''clock'"
    ∧ (noteRow "Null").column.default = some "Null"
    ∧ (noteRow "o'clock").column.default ≠ (noteRow "Null").column.default := by
  have hquoted : (noteRow "o'clock").HoldsStrings := ⟨by decide, by decide⟩
  have hbare : (noteRow "Null").HoldsStrings := ⟨by decide, by decide⟩
  have hdefaults := default_literal_iff hquoted hbare
  refine ⟨hquoted, hbare, ?_, ?_, ?_⟩
  · exact (hdefaults.1 _ rfl).1.mpr (by decide)
  · exact ((default_literal_iff hbare hquoted).1 _ rfl).2.1 (by decide)
  · exact mt hdefaults.2.mp (by decide)

/-- A column whose default is the string NULL defaults to no value at all. -/
theorem default_null_bare :
    (noteRow "NULL").HoldsStrings
    ∧ (noteRow "NULL").column.default ≠ some (Text.literal "NULL")
    ∧ columnDefinition {} (noteRow "NULL").column = "`note` varchar(9) NULL DEFAULT NULL" := by
  exact ⟨⟨by decide, by decide⟩, by decide, by decide⟩

end MySql

end Reconcile
