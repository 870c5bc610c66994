import Reconcile.Catalog.MySql
import Reconcile.Proofs.Wording
import Reconcile.Script.MySql

/-!
# Strings as MySQL reads them

A string is written between single quotes, and a quote inside it twice.  MySQL reads more
into it: unless a server is told otherwise, a backslash takes the next character with it and
both stand for another one (`escaped`), so a quote behind a backslash does not end the
string.  The writing knows nothing of that.  It denotes the string just if every backslash
stands in front of a percent sign or an underscore, the two characters that keep theirs
(`KeepsBackslashes`, `literals_denote_iff`).

That no other string is written so that it is read back is a matter of counting.  What is
read is never longer than what was quoted, and a backslash that takes another character
with it makes it shorter (`untilQuote?_size`).
-/

namespace Reconcile.MySql

/-! ## Reading a string -/

/-- What a backslash and the character behind it stand for.  Percent sign and underscore
keep their backslash, which means something in a pattern. -/
def escaped : Char → List Char
  | '0' => ['\x00']
  | 'b' => ['\x08']
  | 'n' => ['\n']
  | 'r' => ['\r']
  | 't' => ['\t']
  | 'Z' => ['\x1a']
  | '%' => ['\x5c', '%']
  | '_' => ['\x5c', '_']
  | c => [c]

/-- The string up to a quote that stands alone, and what follows. -/
def untilQuote? : List Char → Option (List Char × List Char)
  | [] => none
  | c :: cs =>
      if c = '\x27' then
        match cs with
        | [] => some ([], [])
        | d :: ds =>
            if d = '\x27' then (untilQuote? ds).map fun (s, rest) => ('\x27' :: s, rest)
            else some ([], d :: ds)
      else if c = '\x5c' then
        match cs with
        | [] => none
        | d :: ds => (untilQuote? ds).map fun (s, rest) => (escaped d ++ s, rest)
      else (untilQuote? cs).map fun (s, rest) => (c :: s, rest)

/-- The string that is denoted at the front of a text, and what follows it. -/
def denoted? : List Char → Option (List Char × List Char)
  | [] => none
  | c :: cs => if c = '\x27' then untilQuote? cs else none

/-- Every backslash stands in front of a percent sign or an underscore. -/
def KeepsBackslashes : List Char → Prop
  | [] => True
  | c :: cs =>
      (c = '\x5c' → cs.head? = some '%' ∨ cs.head? = some '_') ∧ KeepsBackslashes cs

instance : DecidablePred KeepsBackslashes
  | [] => isTrue trivial
  | _ :: cs =>
      have : Decidable (KeepsBackslashes cs) := instDecidablePredListCharKeepsBackslashes cs
      inferInstanceAs (Decidable (_ ∧ _))

variable {c d : Char} {s v cs rest : List Char}

/-! ## One step of reading -/

theorem untilQuote?_quotes (cs : List Char) :
    untilQuote? ('\x27' :: '\x27' :: cs)
      = (untilQuote? cs).map fun p => ('\x27' :: p.1, p.2) := by
  rw [untilQuote?.eq_def]
  simp

theorem untilQuote?_end (hrest : rest.head? ≠ some '\x27') :
    untilQuote? ('\x27' :: rest) = some ([], rest) := by
  cases rest with
  | nil => simp [untilQuote?]
  | cons c cs =>
      have hc : c ≠ '\x27' := by simpa using hrest
      simp [untilQuote?, hc]

theorem untilQuote?_backslash (d : Char) (cs : List Char) :
    untilQuote? ('\x5c' :: d :: cs)
      = (untilQuote? cs).map fun p => (escaped d ++ p.1, p.2) := by
  rw [untilQuote?.eq_def]
  simp

theorem untilQuote?_plain (hquote : c ≠ '\x27') (hbackslash : c ≠ '\x5c') (cs : List Char) :
    untilQuote? (c :: cs) = (untilQuote? cs).map fun p => (c :: p.1, p.2) := by
  rw [untilQuote?.eq_def]
  simp [hquote, hbackslash]

/-! ## What is read back -/

/-- What two characters stand for is no longer than they are, and a quote is shorter. -/
theorem length_escaped (d : Char) :
    2 * (escaped d).length + [d].count '\x27' < 5 := by
  unfold escaped
  split <;> simp [List.count_cons]
  split <;> omega

/-- Reading makes nothing longer, and two characters that are read as one make it shorter.
Quotes are counted as well because the writing has doubled them. -/
theorem untilQuote?_size (h : untilQuote? cs = some (v, rest)) :
    2 * v.length + cs.count '\x27' + 2 * rest.length < 2 * cs.length + rest.count '\x27' := by
  fun_induction untilQuote? cs generalizing v rest with
  | case1 => cases h
  | case2 =>
      cases h
      simp
  | case3 ds ih =>
      obtain ⟨⟨s, r⟩, hread, hpair⟩ := Option.map_eq_some_iff.mp h
      cases hpair
      have := ih hread
      simp only [List.length_cons, List.count_cons_self]
      omega
  | case4 d ds hd =>
      cases h
      simp [List.count_cons_of_ne hd]
      omega
  | case5 => cases h
  | case6 d ds _ ih =>
      obtain ⟨⟨s, r⟩, hread, hpair⟩ := Option.map_eq_some_iff.mp h
      cases hpair
      have := ih hread
      have := length_escaped d
      have hcount : ('\x5c' :: d :: ds).count '\x27' = [d].count '\x27' + ds.count '\x27' := by
        simp [List.count_cons, Nat.add_comm]
      rw [hcount, List.length_append]
      simp only [List.length_cons]
      omega
  | case7 c cs hquote _ ih =>
      obtain ⟨⟨s, r⟩, hread, hpair⟩ := Option.map_eq_some_iff.mp h
      cases hpair
      have := ih hread
      simp only [List.length_cons, List.count_cons_of_ne hquote]
      omega

theorem length_double (q : Char) (s : List Char) :
    (Text.double q s).length = s.length + s.count q := by
  induction s with
  | nil => rfl
  | cons c cs ih => by_cases hc : c = q <;> simp [Text.double, hc, ih] <;> omega

theorem count_double (q : Char) (s : List Char) :
    (Text.double q s).count q = 2 * s.count q := by
  induction s with
  | nil => rfl
  | cons c cs ih => by_cases hc : c = q <;> simp [Text.double, hc, ih]; omega

/-- What is read of a quoted string, where the reading ends at its end, is no longer than
the string. -/
theorem length_le_of_untilQuote?_double
    (h : untilQuote? (Text.double '\x27' s ++ '\x27' :: rest) = some (v, rest)) :
    v.length ≤ s.length := by
  have hsize := untilQuote?_size h
  simp only [List.count_append, List.count_cons_self, List.length_append, List.length_cons,
    length_double, count_double] at hsize
  omega

/-- In front of a character that keeps it, a backslash is read like any other character. -/
theorem untilQuote?_backslash_double (hs : s.head? = some '%' ∨ s.head? = some '_') :
    untilQuote? ('\x5c' :: (Text.double '\x27' s ++ '\x27' :: rest))
      = (untilQuote? (Text.double '\x27' s ++ '\x27' :: rest)).map
          fun p => ('\x5c' :: p.1, p.2) := by
  cases s with
  | nil => simp at hs
  | cons d ds =>
      simp only [List.head?_cons, Option.some.injEq] at hs
      rcases hs with rfl | rfl <;>
        simp [Text.double, untilQuote?_backslash, untilQuote?_plain, escaped, Function.comp_def]

theorem eq_of_escaped_append (h : escaped d ++ v = '\x5c' :: s) :
    d = '%' ∨ d = '_' ∨ d = '\x5c' := by
  unfold escaped at h
  split at h <;> simp_all

/-- A backslash is read back only in front of a character that keeps it. -/
theorem kept_of_untilQuote?_double
    (h : untilQuote? ('\x5c' :: (Text.double '\x27' s ++ '\x27' :: rest))
      = some ('\x5c' :: s, rest)) : s.head? = some '%' ∨ s.head? = some '_' := by
  cases s with
  | nil =>
      -- The closing quote is escaped.
      rw [Text.double, List.nil_append, untilQuote?_backslash] at h
      obtain ⟨p, -, hpair⟩ := Option.map_eq_some_iff.mp h
      simp [escaped] at hpair
  | cons d ds =>
      by_cases hquote : d = '\x27'
      · subst hquote
        simp [Text.double, untilQuote?_backslash, escaped] at h
      · simp only [Text.double, hquote, if_false, List.cons_append, untilQuote?_backslash] at h
        obtain ⟨⟨v, r⟩, hread, hpair⟩ := Option.map_eq_some_iff.mp h
        obtain ⟨hvalue, rfl⟩ := Prod.mk.inj hpair
        rcases eq_of_escaped_append hvalue with rfl | rfl | rfl
        · exact Or.inl rfl
        · exact Or.inr rfl
        · -- Two backslashes are read as one, and nothing else makes up for it.
          obtain ⟨-, rfl⟩ : '\x5c' = '\x5c' ∧ v = '\x5c' :: ds := List.cons.inj hvalue
          have hlength := length_le_of_untilQuote?_double hread
          rw [List.length_cons] at hlength
          omega

theorem untilQuote?_double_iff (hrest : rest.head? ≠ some '\x27') :
    untilQuote? (Text.double '\x27' s ++ '\x27' :: rest) = some (s, rest)
      ↔ KeepsBackslashes s := by
  induction s with
  | nil => exact iff_of_true (untilQuote?_end hrest) trivial
  | cons c cs ih =>
      by_cases hquote : c = '\x27'
      · subst hquote
        simp [Text.double, untilQuote?_quotes, ih, KeepsBackslashes]
      by_cases hbackslash : c = '\x5c'
      · subst hbackslash
        rw [Text.double, if_neg hquote, List.cons_append, KeepsBackslashes, ← ih]
        constructor
        · intro h
          have hkept := kept_of_untilQuote?_double h
          rw [untilQuote?_backslash_double hkept] at h
          exact ⟨fun _ => hkept, by simpa using h⟩
        · rintro ⟨hkept, hread⟩
          rw [untilQuote?_backslash_double (hkept rfl), hread]
          rfl
      · simp [Text.double, hquote, untilQuote?_plain hquote hbackslash, ih, KeepsBackslashes,
          hbackslash]

/-- The literal of a string denotes it just if its backslashes are kept. -/
theorem denoted?_literal_iff (text : String) (hrest : rest.head? ≠ some '\x27') :
    denoted? ((Text.literal text).toList ++ rest) = some (text.toList, rest)
      ↔ KeepsBackslashes text.toList := by
  rw [← untilQuote?_double_iff hrest, Text.literal, Text.toList_enclose]
  simp [Text.encloseChars, denoted?]

/-! ## Where strings are written -/

theorem columnDefinition_of_comment (o : Options) {c : Column} {comment : String}
    (h : c.comment = some comment) :
    columnDefinition o c
      = columnDefinition o { c with comment := none } ++ " COMMENT " ++ Text.literal comment := by
  simp [columnDefinition, h, clause, String.append_assoc]

/-- The catalog's default of a column is a string: it is neither the current time nor NULL
nor an expression, and the column holds no numbers and the default no bits. -/
structure StringDefault (dataType extra value : String) : Prop where
  noTime : ¬ "CURRENT_TIMESTAMP".toList <+: Text.upperChars value
  noNull : Text.upperChars value ≠ "NULL".toList
  noExpression : remarks extra "default_generated" = false
  noNumber : isNumericType dataType = false
  noBits : Text.sameFolded dataType "bit" = true → ¬ ['b', '\x27'] <+: value.toList

theorem columnDefault_of_string {dataType extra value : String}
    (h : StringDefault dataType extra value) :
    columnDefault dataType extra value = Text.literal value := by
  have hkeyword : ("CURRENT_TIMESTAMP".toList.isPrefixOf (Text.upperChars value)
      || Text.upperChars value == "NULL".toList) = false := by
    simpa [← List.isPrefixOf_iff_prefix] using And.intro h.noTime h.noNull
  have hbits : (Text.sameFolded dataType "bit" && ['b', '\x27'].isPrefixOf value.toList)
      = false := by
    simpa [← List.isPrefixOf_iff_prefix] using h.noBits
  simp only [columnDefault, hkeyword, h.noExpression, h.noNumber, hbits, Bool.false_eq_true,
    if_false]

/-- Comments of columns and defaults that are strings are written as literals.  MySQL reads
them to their end and as the string they were made from just if it keeps the backslashes in
them. -/
theorem literals_denote_iff (o : Options) (hrest : rest.head? ≠ some '\x27') :
    (∀ (c : Column) (comment : String), c.comment = some comment →
      columnDefinition o c
          = columnDefinition o { c with comment := none } ++ " COMMENT " ++ Text.literal comment
        ∧ (denoted? ((Text.literal comment).toList ++ rest) = some (comment.toList, rest)
          ↔ KeepsBackslashes comment.toList))
    ∧ ∀ dataType extra value, StringDefault dataType extra value →
      columnDefault dataType extra value = Text.literal value
        ∧ (denoted? ((columnDefault dataType extra value).toList ++ rest)
            = some (value.toList, rest)
          ↔ KeepsBackslashes value.toList) := by
  constructor
  · intro c comment hcomment
    exact ⟨columnDefinition_of_comment o hcomment, denoted?_literal_iff comment hrest⟩
  · intro dataType extra value hstring
    have hliteral := columnDefault_of_string hstring
    rw [hliteral]
    exact ⟨rfl, denoted?_literal_iff value hrest⟩

/-- A quote is read back, and so is a backslash that belongs to a pattern. -/
theorem literals_denote_iff_discount :
    let rest := ",\n".toList
    let discount : Column :=
      { name := "discount", dataType := "varchar(9)", comment := some "it's 5\\%" }
    rest.head? ≠ some '\x27'
    ∧ columnDefinition {} discount = "`discount` varchar(9) NOT NULL COMMENT 'it''s 5\\%'"
    ∧ denoted? ("'it''s 5\\%'".toList ++ rest) = some ("it's 5\\%".toList, rest)
    ∧ StringDefault "varchar" "" "o'clock"
    ∧ denoted? ((columnDefault "varchar" "" "o'clock").toList ++ rest)
      = some ("o'clock".toList, rest) := by
  intro rest discount
  have hrest : rest.head? ≠ some '\x27' := by decide
  have hstring : StringDefault "varchar" "" "o'clock" :=
    ⟨by decide, by decide, by decide, by decide, by decide⟩
  have hread := literals_denote_iff {} hrest
  refine ⟨hrest, by decide, ?_, hstring, ?_⟩
  · exact (hread.1 discount _ rfl).2.mpr (by decide)
  · exact (hread.2 _ _ _ hstring).2.mpr (by decide)

/-- A backslash at the end takes the closing quote along, and the string never ends.  Written
twice it would be read back. -/
theorem path_runs_on :
    let rest := "\n)".toList
    let path : Column := { name := "path", dataType := "varchar(9)", comment := some "C:\\" }
    rest.head? ≠ some '\x27'
    ∧ columnDefinition {} path = "`path` varchar(9) NOT NULL COMMENT 'C:\\'"
    ∧ columnDefault "varchar" "" "C:\\" = "'C:\\'"
    ∧ denoted? ("'C:\\'".toList ++ rest) = none
    ∧ denoted? ("'C:\\\\'".toList ++ rest) = some ("C:\\".toList, rest) := by
  refine ⟨by decide, by decide, by decide, by decide, ?_⟩
  simp [denoted?, untilQuote?, escaped]

end Reconcile.MySql
