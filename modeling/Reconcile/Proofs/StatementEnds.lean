import Reconcile.Proofs.CanonicalDefinitions
import Reconcile.Script.Consolidated
import Reconcile.Script.PostgreSql

/-!
# The ends of PostgreSQL's stored definitions

A stored definition may carry semicolons and white space behind its last word, while a statement
is to come without a terminator, since rendering puts one behind it.  The body of a definition
is cut three times, white space, semicolons, white space, and that takes all of the end just if
its semicolons stand together (`bodyChars_settled_iff`).  Where white space stands between two of
them, the cuts stop there: the statement keeps a semicolon, the rendered one has two
terminators, and a second cut takes off what the first one left (`statementEnds_iff`).
-/

namespace Reconcile

namespace Text

/-- Characters that may stand behind a statement. -/
def isEnd (c : Char) : Bool :=
  isBlank c || c == ';'

/-- Neither a semicolon nor white space stands at the end. -/
def Settled (cs : List Char) : Prop :=
  ∀ c, cs.getLast? = some c → isEnd c = false

/-- The semicolons at the end stand together, whatever white space is around them. -/
def EndsTogether (cs : List Char) : Prop :=
  ∃ core before semicolons after, cs = core ++ (before ++ (semicolons ++ after)) ∧ Settled core
    ∧ (∀ c ∈ before, isBlank c = true) ∧ (∀ c ∈ semicolons, (c == ';') = true)
    ∧ ∀ c ∈ after, isBlank c = true

/-- How many terminators a statement carries at its end. -/
def terminators (cs : List Char) : Nat :=
  (cs.rtakeWhile isEnd).count ';'

variable {p : Char → Bool} {c : Char} {cs core before semicolons after front : List Char}

/-! ## Ends of texts -/

theorem dropEndWhile_eq_self (h : ∀ c, cs.getLast? = some c → p c = false) :
    dropEndWhile p cs = cs := by
  apply List.rdropWhile_eq_self_iff.mpr
  intro hcs
  simpa using h _ (List.getLast?_eq_some_getLast hcs)

theorem last_dropEndWhile (h : (dropEndWhile p cs).getLast? = some c) : p c = false := by
  have hlast : (List.rdropWhile p cs).getLast? = some c := h
  have hne : List.rdropWhile p cs ≠ [] := by
    intro hnil
    rw [hnil] at hlast
    cases hlast
  have hnot := List.rdropWhile_last_not p cs hne
  rw [(List.getLast_eq_iff_getLast?_eq_some hne).mpr hlast] at hnot
  simpa using hnot

theorem dropEndWhile_isPrefix (p : Char → Bool) (cs : List Char) : dropEndWhile p cs <+: cs :=
  List.rdropWhile_prefix p cs

theorem Settled.not_blank (h : Settled cs) (hc : cs.getLast? = some c) : isBlank c = false :=
  (Bool.or_eq_false_iff.mp (h c hc)).1

theorem Settled.not_semicolon (h : Settled cs) (hc : cs.getLast? = some c) :
    (c == ';') = false :=
  (Bool.or_eq_false_iff.mp (h c hc)).2

theorem settled_nil : Settled [] := by
  intro c hc
  cases hc

theorem settled_append (front : List Char) (hcs : cs ≠ []) :
    Settled (front ++ cs) ↔ Settled cs := by
  unfold Settled
  rw [List.getLast?_append_of_ne_nil front hcs]

/-- White space in front says nothing about the end. -/
theorem endsTogether_cons_of_blank (hc : isBlank c = true) :
    EndsTogether (c :: cs) ↔ EndsTogether cs := by
  constructor
  · rintro ⟨core, before, semicolons, after, hsplit, hcore, hbefore, hsemicolons, hafter⟩
    cases core with
    | cons d core =>
        obtain ⟨rfl, rfl⟩ := List.cons.inj hsplit
        refine ⟨core, before, semicolons, after, rfl, ?_, hbefore, hsemicolons, hafter⟩
        rcases eq_or_ne core [] with rfl | hne
        · exact settled_nil
        · exact (settled_append [c] hne).mp hcore
    | nil =>
        cases before with
        | cons d before =>
            obtain ⟨rfl, rfl⟩ := List.cons.inj hsplit
            exact ⟨[], before, semicolons, after, rfl, hcore,
              fun e he => hbefore e (List.mem_cons_of_mem c he), hsemicolons, hafter⟩
        | nil =>
            cases semicolons with
            | cons d semicolons =>
                -- A semicolon is no white space.
                obtain ⟨rfl, -⟩ := List.cons.inj hsplit
                obtain rfl : c = ';' := by simpa using hsemicolons c List.mem_cons_self
                exact absurd hc (by decide)
            | nil =>
                obtain rfl : c :: cs = after := hsplit
                exact ⟨[], [], [], cs, rfl, hcore, hbefore, hsemicolons,
                  fun e he => hafter e (List.mem_cons_of_mem c he)⟩
  · rintro ⟨core, before, semicolons, after, rfl, hcore, hbefore, hsemicolons, hafter⟩
    rcases eq_or_ne core [] with rfl | hne
    · refine ⟨[], c :: before, semicolons, after, rfl, hcore, ?_, hsemicolons, hafter⟩
      intro e he
      rcases List.mem_cons.mp he with rfl | he
      · exact hc
      · exact hbefore e he
    · exact ⟨c :: core, before, semicolons, after, rfl, (settled_append [c] hne).mpr hcore,
        hbefore, hsemicolons, hafter⟩

theorem endsTogether_dropWhile (cs : List Char) :
    EndsTogether (cs.dropWhile isBlank) ↔ EndsTogether cs := by
  induction cs with
  | nil => rfl
  | cons c cs ih =>
      rw [List.dropWhile_cons]
      split
      next hc => rw [ih, endsTogether_cons_of_blank hc]
      next => rfl

/-! ## Terminators -/

theorem terminators_concat (cs : List Char) : terminators (cs ++ [';']) = terminators cs + 1 := by
  unfold terminators
  rw [List.rtakeWhile_concat_pos _ _ _ (by decide)]
  simp

/-- A text that no white space ends has no terminator just if it is settled. -/
theorem terminators_eq_zero_iff (h : ∀ c, cs.getLast? = some c → isBlank c = false) :
    terminators cs = 0 ↔ Settled cs := by
  constructor
  · intro hnone c hc
    rw [isEnd, h c hc, Bool.false_or, beq_eq_false_iff_ne]
    rintro rfl
    obtain ⟨rest, rfl⟩ := List.getLast?_eq_some_iff.mp hc
    rw [terminators_concat] at hnone
    exact absurd hnone (Nat.succ_ne_zero _)
  · intro hsettled
    have hnone : cs.rtakeWhile isEnd = [] := by
      apply List.rtakeWhile_eq_nil_iff.mpr
      intro hne
      simpa using hsettled _ (List.getLast?_eq_some_getLast hne)
    rw [terminators, hnone]
    rfl

end Text

namespace PostgreSql

open Text

variable {c : Char} {cs core before semicolons after : List Char}

/-! ## The body of a definition -/

/-- The three cuts at the end of a text. -/
def cutEnd (cs : List Char) : List Char :=
  dropEndWhile isBlank (dropEndWhile (· == ';') (dropEndWhile isBlank cs))

theorem bodyChars_eq (cs : List Char) : bodyChars cs = cutEnd (cs.dropWhile isBlank) :=
  rfl

theorem last_bodyChars (h : (bodyChars cs).getLast? = some c) : isBlank c = false :=
  last_dropEndWhile h

/-- The cuts take semicolons that stand together, with the white space around them. -/
theorem cutEnd_of_settled (hcore : Settled core) (hbefore : ∀ c ∈ before, isBlank c = true)
    (hsemicolons : ∀ c ∈ semicolons, (c == ';') = true) (hafter : ∀ c ∈ after, isBlank c = true) :
    cutEnd (core ++ (before ++ (semicolons ++ after))) = core := by
  have hblanks : dropEndWhile isBlank core = core :=
    dropEndWhile_eq_self fun _ hc => hcore.not_blank hc
  have hplain : dropEndWhile (· == ';') core = core :=
    dropEndWhile_eq_self fun _ hc => hcore.not_semicolon hc
  have hfirst : dropEndWhile isBlank (core ++ (before ++ (semicolons ++ after)))
      = dropEndWhile isBlank (core ++ (before ++ semicolons)) := by
    rw [← List.append_assoc before, ← List.append_assoc core,
      dropEndWhile_append_of_all hafter]
  unfold cutEnd
  rw [hfirst]
  rcases eq_or_ne semicolons [] with rfl | hsome
  · rw [List.append_nil, dropEndWhile_append_of_all hbefore, hblanks, hplain, hblanks]
  · have hstop : dropEndWhile isBlank (core ++ (before ++ semicolons))
        = core ++ (before ++ semicolons) := by
      apply dropEndWhile_eq_self
      intro c hc
      rw [← List.append_assoc, List.getLast?_append_of_ne_nil _ hsome] at hc
      obtain rfl : c = ';' := by simpa using hsemicolons c (List.mem_of_getLast? hc)
      decide
    rw [hstop, ← List.append_assoc, dropEndWhile_append_of_all hsemicolons]
    rcases eq_or_ne before [] with rfl | hgap
    · rw [List.append_nil, hplain, hblanks]
    · have hstop : dropEndWhile (· == ';') (core ++ before) = core ++ before := by
        apply dropEndWhile_eq_self
        intro c hc
        rw [List.getLast?_append_of_ne_nil _ hgap] at hc
        rw [beq_eq_false_iff_ne]
        rintro rfl
        exact absurd (hbefore _ (List.mem_of_getLast? hc)) (by decide)
      rw [hstop, dropEndWhile_append_of_all hbefore, hblanks]

theorem cutEnd_settled_iff (cs : List Char) : Settled (cutEnd cs) ↔ EndsTogether cs := by
  constructor
  · intro hsettled
    obtain ⟨after, hafter, hfirst⟩ := exists_dropEndWhile_append isBlank cs
    obtain ⟨semicolons, hsemicolons, hsecond⟩ :=
      exists_dropEndWhile_append (· == ';') (dropEndWhile isBlank cs)
    obtain ⟨before, hbefore, hthird⟩ :=
      exists_dropEndWhile_append isBlank (dropEndWhile (· == ';') (dropEndWhile isBlank cs))
    refine ⟨cutEnd cs, before, semicolons, after, ?_, hsettled, hbefore, hsemicolons, hafter⟩
    calc cs
      _ = dropEndWhile isBlank cs ++ after := hfirst
      _ = dropEndWhile (· == ';') (dropEndWhile isBlank cs) ++ semicolons ++ after := by
          rw [← hsecond]
      _ = cutEnd cs ++ before ++ semicolons ++ after := by rw [cutEnd, ← hthird]
      _ = cutEnd cs ++ (before ++ (semicolons ++ after)) := by simp
  · rintro ⟨core, before, semicolons, after, rfl, hcore, hbefore, hsemicolons, hafter⟩
    rw [cutEnd_of_settled hcore hbefore hsemicolons hafter]
    exact hcore

theorem bodyChars_settled_iff (cs : List Char) : Settled (bodyChars cs) ↔ EndsTogether cs := by
  rw [bodyChars_eq, cutEnd_settled_iff, endsTogether_dropWhile]

/-- No white space stands in front of a body. -/
theorem dropWhile_bodyChars (cs : List Char) : (bodyChars cs).dropWhile isBlank = bodyChars cs := by
  have hcut : ∀ ds : List Char, cutEnd ds <+: ds := by
    intro ds
    apply List.IsPrefix.trans (dropEndWhile_isPrefix isBlank _)
    apply List.IsPrefix.trans (dropEndWhile_isPrefix (· == ';') _)
    exact dropEndWhile_isPrefix isBlank ds
  have hprefix : bodyChars cs <+: cs.dropWhile isBlank := hcut _
  cases hbody : bodyChars cs with
  | nil => rfl
  | cons c rest =>
      rw [hbody] at hprefix
      obtain ⟨behind, hfront⟩ := hprefix
      have hc : isBlank c = false := by
        have hhead := List.head?_dropWhile_not isBlank cs
        rw [← hfront] at hhead
        simpa using hhead
      rw [List.dropWhile_cons, hc]
      rfl

/-- A second cut changes nothing just if the first one left nothing to cut. -/
theorem bodyChars_bodyChars_iff (cs : List Char) :
    bodyChars (bodyChars cs) = bodyChars cs ↔ Settled (bodyChars cs) := by
  constructor
  · intro hsame c hc
    have htrim : (trimChars (bodyChars cs)).length ≤ (bodyChars cs).length :=
      (dropEndWhile_isPrefix _ _).length_le.trans (List.length_dropWhile_le _ _)
    have hcut := (dropEndWhile_isPrefix (· == ';') (trimChars (bodyChars cs))).length_le
    -- The last of the three cuts found nothing, so semicolons were the last to go.
    have hlast : bodyChars (bodyChars cs)
        = dropEndWhile (· == ';') (trimChars (bodyChars cs)) := by
      apply (dropEndWhile_isPrefix isBlank _).eq_of_length_le
      change _ ≤ (bodyChars (bodyChars cs)).length
      rw [hsame]
      exact hcut.trans htrim
    rw [hsame] at hlast
    have hsemicolon : (c == ';') = false := by
      apply @last_dropEndWhile (· == ';') c (trimChars (bodyChars cs))
      rw [← hlast]
      exact hc
    rw [isEnd, last_bodyChars hc, hsemicolon]
    rfl
  · intro hsettled
    rw [bodyChars_eq (bodyChars cs), dropWhile_bodyChars]
    have hnone : ∀ (q : Char → Bool), ∀ c ∈ ([] : List Char), q c = true := by simp
    simpa using cutEnd_of_settled hsettled (hnone _) (hnone _) (hnone _)

/-! ## Statements -/

variable {o : Options} {definition statement : String}

/-- The statement creates a view or a routine that has the stored definition. -/
inductive Creates (o : Options) : String → String → Prop
  | view {v : View} {statement : String} (h : createView o v = .ok statement) :
      Creates o v.definition statement
  | routine {r : Routine} {statement : String} (h : createRoutine r = .ok statement) :
      Creates o r.definition statement

/-- Such a statement ends as the body of the definition does. -/
theorem Creates.exists_front (h : Creates o definition statement) :
    ∃ front, statement.toList = front ++ bodyChars definition.toList
      ∧ bodyChars definition.toList ≠ [] := by
  cases h with
  | @view v _ h =>
      unfold createView at h
      dsimp only at h
      split at h
      · cases h
      next hbody =>
        obtain rfl := Except.ok.inj h
        let view := Dialect.postgreSql.qualified o v.schema v.name
        refine ⟨("CREATE VIEW " ++ view ++ " AS\n").toList, ?_, ?_⟩
        · simp [body, toString, view]
        · simpa [body] using hbody
  | routine h =>
      unfold createRoutine at h
      dsimp only at h
      split at h
      · cases h
      next hbody =>
        obtain rfl := Except.ok.inj h
        refine ⟨[], ?_, ?_⟩
        · simp [body]
        · simpa [body] using hbody

theorem toList_render_singleton (statement : String) :
    ((spelling o).render [statement]).toList = statement.toList ++ [';'] := by
  simp [Spelling.render, Text.joined, spelling]

theorem Creates.last (h : Creates o definition statement)
    (hc : statement.toList.getLast? = some c) : isBlank c = false := by
  obtain ⟨front, hstatement, hbody⟩ := h.exists_front
  rw [hstatement, List.getLast?_append_of_ne_nil front hbody] at hc
  exact last_bodyChars hc

theorem Creates.settled_iff (h : Creates o definition statement) :
    Settled statement.toList ↔ EndsTogether definition.toList := by
  obtain ⟨front, hstatement, hbody⟩ := h.exists_front
  rw [hstatement, settled_append front hbody]
  exact bodyChars_settled_iff _

/-- A statement is without semicolons and white space at its end, carries one terminator when it
is rendered, and comes from a body that a second cut leaves as it is, just if the semicolons that
end the stored definition stand together.  White space never ends it. -/
theorem statementEnds_iff (o : Options) (definition : String) :
    (∀ statement, Creates o definition statement →
      (∀ c, statement.toList.getLast? = some c → isBlank c = false)
      ∧ (Settled statement.toList ↔ EndsTogether definition.toList)
      ∧ (terminators ((spelling o).render [statement]).toList = 1
        ↔ EndsTogether definition.toList))
    ∧ (body (body definition) = body definition ↔ EndsTogether definition.toList) := by
  constructor
  · intro statement h
    refine ⟨fun c => h.last, h.settled_iff, ?_⟩
    rw [toList_render_singleton, terminators_concat, ← h.settled_iff,
      ← terminators_eq_zero_iff fun c => h.last]
    omega
  · unfold body
    rw [String.ofList_inj, String.toList_ofList, bodyChars_bodyChars_iff]
    exact bodyChars_settled_iff _

/-- A view whose definition ends as it is handed out. -/
def orderView : View :=
  { schema := "public", name := "orders", definition := " SELECT 1 ;;\n" }

theorem statementEnds_iff_orders :
    Creates {} orderView.definition "CREATE VIEW \"orders\" AS\nSELECT 1"
    ∧ EndsTogether orderView.definition.toList
    ∧ Settled "CREATE VIEW \"orders\" AS\nSELECT 1".toList
    ∧ body (body orderView.definition) = body orderView.definition := by
  have hcreates : Creates {} orderView.definition "CREATE VIEW \"orders\" AS\nSELECT 1" :=
    .view rfl
  have htogether : EndsTogether orderView.definition.toList := by
    refine ⟨" SELECT 1".toList, [' '], [';', ';'], ['\n'], rfl, ?_,
      List.forall_mem_singleton.mpr rfl, by simp, List.forall_mem_singleton.mpr rfl⟩
    rintro c ⟨⟩
    rfl
  obtain ⟨hstatements, hbody⟩ := statementEnds_iff {} orderView.definition
  exact ⟨hcreates, htogether, (hstatements _ hcreates).2.1.mpr htogether, hbody.mpr htogether⟩

/-- A view with a blank between two semicolons at the end of its definition. -/
def spacedView : View :=
  { schema := "public", name := "v", definition := "select 1; ;" }

/-- The statement keeps the first semicolon, gets another one, and is not cut to the end. -/
theorem createView_keeps_semicolon :
    createView {} spacedView = .ok "CREATE VIEW \"v\" AS\nselect 1;"
    ∧ (spelling {}).render ["CREATE VIEW \"v\" AS\nselect 1;"]
      = "CREATE VIEW \"v\" AS\nselect 1;;"
    ∧ body spacedView.definition = "select 1;"
    ∧ body (body spacedView.definition) = "select 1" :=
  ⟨rfl, rfl, rfl, rfl⟩

end PostgreSql

end Reconcile
