import Reconcile.Script.Spelling

/-!
# Names in statements

A quoted name is a prefix code: read from the front of any text that does not go
on with another closing quote, it gives back the name and leaves the rest.  So a
qualified name in front of a blank or a bracket can be told from what follows it,
which is what separates the table of a statement from the change it makes.
-/

namespace Reconcile

namespace Text

theorem untilClosing?_cons_of_ne {q c : Char} (hc : c ≠ q) (cs : List Char) :
    untilClosing? q (c :: cs)
      = (untilClosing? q cs).map fun p => (c :: p.1, p.2) := by
  rw [untilClosing?.eq_def]
  simp [hc]

@[simp] theorem double_append (q : Char) (xs ys : List Char) :
    double q (xs ++ ys) = double q xs ++ double q ys := by
  induction xs with
  | nil => rfl
  | cons c cs ih => by_cases hc : c = q <;> simp [double, hc, ih]

theorem double_of_notMem {q : Char} {cs : List Char} (h : q ∉ cs) : double q cs = cs := by
  induction cs with
  | nil => rfl
  | cons c cs ih =>
      have hc : c ≠ q := fun heq => h (heq ▸ List.mem_cons_self)
      rw [double, if_neg hc, ih fun hmem => h (List.mem_cons_of_mem c hmem)]

@[simp] theorem mem_double {q c : Char} {cs : List Char} : c ∈ double q cs ↔ c ∈ cs := by
  induction cs with
  | nil => simp [double]
  | cons d cs ih => by_cases hd : d = q <;> simp [double, hd, ih]

theorem untilClosing?_pair (q : Char) (cs : List Char) :
    untilClosing? q (q :: q :: cs) = (untilClosing? q cs).map fun p => (q :: p.1, p.2) := by
  rw [untilClosing?.eq_def]
  simp

theorem untilClosing?_end {q : Char} {rest : List Char} (hrest : rest.head? ≠ some q) :
    untilClosing? q (q :: rest) = some ([], rest) := by
  cases rest with
  | nil => simp [untilClosing?]
  | cons c cs =>
      have hc : c ≠ q := by simpa using hrest
      simp [untilClosing?, hc]

/-- Scanning what `double` wrote stops at the closing character behind it. -/
theorem untilClosing?_double {q : Char} {rest : List Char}
    (hrest : rest.head? ≠ some q) (cs : List Char) :
    untilClosing? q (double q cs ++ q :: rest) = some (cs, rest) := by
  induction cs with
  | nil => exact untilClosing?_end hrest
  | cons c cs ih =>
      by_cases hc : c = q
      · subst hc
        simp [double, untilClosing?_pair, ih]
      · simp [double, untilClosing?_cons_of_ne hc, hc, ih]

theorem enclosed?_encloseChars {opening closing : Char} {rest : List Char}
    (hrest : rest.head? ≠ some closing) (cs : List Char) :
    enclosed? opening closing (encloseChars opening closing cs ++ rest)
      = some (cs, rest) := by
  have hscan := untilClosing?_double hrest cs
  simpa [enclosed?, encloseChars] using hscan

theorem eq_of_untilClosing? {q : Char} {cs inner rest : List Char}
    (h : untilClosing? q cs = some (inner, rest)) :
    cs = double q inner ++ q :: rest := by
  fun_induction untilClosing? q cs generalizing inner rest with
  | case1 => cases h
  | case2 =>
      cases h
      rfl
  | case3 ds ih =>
      obtain ⟨⟨name, r⟩, hread, hpair⟩ := Option.map_eq_some_iff.mp h
      cases hpair
      simp [double, ih hread]
  | case4 d ds =>
      cases h
      rfl
  | case5 c cs hc ih =>
      obtain ⟨⟨name, r⟩, hread, hpair⟩ := Option.map_eq_some_iff.mp h
      cases hpair
      simp [double, hc, ih hread]

/-- A quoted name and a character behind it are found where they are read. -/
theorem enclosed_prefix_iff {q c : Char} (hc : c ≠ q) {name cs : List Char} :
    encloseChars q q name ++ [c] <+: cs ↔ ∃ rest, enclosed? q q cs = some (name, c :: rest) := by
  constructor
  · rintro ⟨rest, rfl⟩
    refine ⟨rest, ?_⟩
    rw [List.append_assoc]
    exact enclosed?_encloseChars (by simpa using hc) name
  · rintro ⟨rest, hread⟩
    cases cs with
    | nil => cases hread
    | cons d cs =>
        obtain ⟨rfl, hread⟩ : d = q ∧ untilClosing? q cs = some (name, c :: rest) := by
          simpa [enclosed?] using hread
        rw [eq_of_untilClosing? hread]
        exact ⟨rest, by simp [encloseChars]⟩

theorem untilClosing?_append_of_notMem {q : Char} {gap : List Char} (h : q ∉ gap)
    (rest : List Char) :
    untilClosing? q (gap ++ rest)
      = (untilClosing? q rest).map fun p => (gap ++ p.1, p.2) := by
  induction gap with
  | nil => simp
  | cons c gap ih =>
      rw [List.mem_cons, not_or] at h
      rw [List.cons_append, untilClosing?_cons_of_ne (Ne.symm h.1), ih h.2]
      simp [Function.comp_def]

theorem toList_enclose (opening closing : Char) (s : String) :
    (enclose opening closing s).toList
      = encloseChars opening closing s.toList := by
  simp [enclose]

end Text

namespace Dialect

variable {d : Dialect} {o : Options}

/-- Two quoted names in front of two texts are the same only if names and texts
are. -/
theorem quote_append_inj {a b : String} {r r' : List Char}
    (hr : r.head? ≠ some d.closingQuote) (hr' : r'.head? ≠ some d.closingQuote)
    (h : (d.quote a).toList ++ r = (d.quote b).toList ++ r') : a = b ∧ r = r' := by
  have hread := congrArg (Text.enclosed? d.openingQuote d.closingQuote) h
  simp only [quote, Text.toList_enclose, Text.enclosed?_encloseChars hr,
    Text.enclosed?_encloseChars hr', Option.some.injEq, Prod.mk.injEq] at hread
  exact ⟨String.toList_inj.mp hread.1, hread.2⟩

theorem quote_inj {a b : String} (h : d.quote a = d.quote b) : a = b := by
  have hchars : (d.quote a).toList ++ [] = (d.quote b).toList ++ [] := by rw [h]
  exact (quote_append_inj (by simp) (by simp) hchars).1

theorem closingQuote_ne_blank : d.closingQuote ≠ ' ' := by
  cases d <;> decide

theorem closingQuote_ne_dot : d.closingQuote ≠ '.' := by
  cases d <;> decide

theorem toList_qualified_of_schema {schema : String}
    (h : o.useSchemaName = true ∧ schema ≠ "") (name : String) :
    (d.qualified o schema name).toList
      = (d.quote schema).toList ++ '.' :: (d.quote name).toList := by
  simp [qualified, qualify, h.1, h.2]

theorem qualified_of_no_schema {schema : String}
    (h : ¬ (o.useSchemaName = true ∧ schema ≠ "")) (name : String) :
    d.qualified o schema name = d.quote name := by
  have hcond : (o.useSchemaName && !schema.isEmpty) = false := by
    by_cases hu : o.useSchemaName = true
    · simpa [hu] using h
    · simp [hu]
  simp [qualified, qualify, hcond]

/-- Two qualified names, each with a blank behind it, are the same only if their
names are, and their schemas where those are written. -/
theorem qualified_append_inj {schema schema' name name' : String}
    {r r' : List Char}
    (h : (d.qualified o schema name).toList ++ ' ' :: r
      = (d.qualified o schema' name').toList ++ ' ' :: r') :
    (o.useSchemaName = true → schema = schema') ∧ name = name' ∧ r = r' := by
  have hblank : ∀ cs : List Char, (' ' :: cs).head? ≠ some d.closingQuote := by
    intro cs hcs
    exact closingQuote_ne_blank (Option.some.inj hcs).symm
  have hdot : ∀ cs : List Char, ('.' :: cs).head? ≠ some d.closingQuote := by
    intro cs hcs
    exact closingQuote_ne_dot (Option.some.inj hcs).symm
  by_cases hs : o.useSchemaName = true ∧ schema ≠ ""
  · by_cases hs' : o.useSchemaName = true ∧ schema' ≠ ""
    · rw [toList_qualified_of_schema hs, toList_qualified_of_schema hs',
        List.append_assoc, List.append_assoc] at h
      obtain ⟨hschema, hrest⟩ := quote_append_inj (hdot _) (hdot _) h
      obtain ⟨hname, hr⟩ :=
        quote_append_inj (hblank _) (hblank _) (List.cons.inj hrest).2
      exact ⟨fun _ => hschema, hname, (List.cons.inj hr).2⟩
    · rw [toList_qualified_of_schema hs, qualified_of_no_schema hs',
        List.append_assoc] at h
      obtain ⟨-, hrest⟩ := quote_append_inj (hdot _) (hblank _) h
      simp at hrest
  · by_cases hs' : o.useSchemaName = true ∧ schema' ≠ ""
    · rw [qualified_of_no_schema hs, toList_qualified_of_schema hs',
        List.append_assoc] at h
      obtain ⟨-, hrest⟩ := quote_append_inj (hblank _) (hdot _) h
      simp at hrest
    · rw [qualified_of_no_schema hs, qualified_of_no_schema hs'] at h
      obtain ⟨hname, hr⟩ := quote_append_inj (hblank _) (hblank _) h
      refine ⟨fun hu => ?_, hname, (List.cons.inj hr).2⟩
      have hempty : schema = "" := by simpa [hu] using hs
      have hempty' : schema' = "" := by simpa [hu] using hs'
      rw [hempty, hempty']

end Dialect

end Reconcile
