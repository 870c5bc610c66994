import Reconcile.Proofs.Names
import Reconcile.Text.Definer
import Mathlib.Data.List.Basic

/-!
# Which definers are cut out

MySQL writes the account that defined a routine as two quoted names, with the quotes inside
them written twice.  The clause is found without that rule: a quoted name is taken to end at
the next quote, and where nothing fits behind it the user name is taken for a bare one, quotes
and all.

An account can come out right in three ways (`Recognised`).  Neither name holds a backquote.
Or the user name holds one, and neither white space nor an at sign, so that it passes for a
bare name.  Or it passes for a bare name up to an at sign of its own, and all that follows for
a bare host.  For every other account there is a text from which the clause is not cut out,
or not all of it (`stripDefiner_iff`).
-/

namespace Reconcile.Text

/-- A name in MySQL's quotes. -/
def backquoted (name : List Char) : List Char :=
  encloseChars '\x60' '\x60' name

/-- An account as MySQL writes it. -/
def accountChars (user host : List Char) : List Char :=
  backquoted user ++ '@' :: backquoted host

/-- What a bare user name is made of. -/
def isUserChar (c : Char) : Bool :=
  !isBlank c && c != '@'

def StartsBlank (cs : List Char) : Prop :=
  ∃ c rest, cs = c :: rest ∧ isBlank c = true

/-- The account is read to its end. -/
inductive Recognised : List Char → List Char → Prop
  /-- Both names are read as quoted ones. -/
  | quoted {user host : List Char} (huser : '\x60' ∉ user) (hhost : '\x60' ∉ host) :
      Recognised user host
  /-- The user name is read as a bare one that begins and ends with a quote. -/
  | bare {user host : List Char} (huser : ∀ c ∈ user, isUserChar c = true)
      (hhost : '\x60' ∉ host) : Recognised user host
  /-- An at sign inside the user name is taken for the one between the names, and what
  follows it for a bare host. -/
  | split {before after host : List Char} {c : Char} (hquote : '\x60' ∈ before ++ c :: after)
      (hbefore : ∀ d ∈ before, isUserChar d = true) (hc : c ≠ '\x60' ∧ c ≠ '\x27')
      (hafter : ∀ d ∈ c :: after, isBlank d = false)
      (hhost : ∀ d ∈ host, isBlank d = false) : Recognised (before ++ '@' :: c :: after) host

variable {c q : Char} {cs xs ys user host name rest tail : List Char}

/-! ## Reading names -/

/-- A text is cut where a predicate fails for the first time. -/
theorem exists_split_of_not_all {p : Char → Bool} (h : ¬ ∀ c ∈ cs, p c = true) :
    ∃ before c after, cs = before ++ c :: after ∧ (∀ d ∈ before, p d = true)
      ∧ p c = false := by
  induction cs with
  | nil => simp at h
  | cons c cs ih =>
      by_cases hc : p c = true
      · obtain ⟨before, d, after, rfl, hbefore, hd⟩ := ih fun hall => h (by simpa [hc] using hall)
        exact ⟨c :: before, d, after, rfl, by simpa [hc] using hbefore, hd⟩
      · exact ⟨[], c, cs, rfl, by simp, by simpa using hc⟩

theorem dropWhile_append_cons {p : Char → Bool} (hxs : ∀ d ∈ xs, p d = true)
    (hc : p c = false) (ys : List Char) : (xs ++ c :: ys).dropWhile p = c :: ys := by
  rw [List.dropWhile_append_of_pos hxs]
  simp [hc]

/-- A bare name is read up to the first character that none may hold. -/
theorem dropRun?_append {p : Char → Bool} {d : Char} (hd : p d = true)
    (hxs : ∀ e ∈ xs, p e = true) (hc : p c = false) (ys : List Char) :
    dropRun? p (d :: (xs ++ c :: ys)) = some (c :: ys) := by
  rw [dropRun?, if_pos hd, dropWhile_append_cons hxs hc]

/-- A name between quotes is read up to the first quote. -/
theorem dropBetween?_append (h : q ∉ name) (rest : List Char) :
    dropBetween? q (q :: (name ++ q :: rest)) = some rest := by
  have hstop : (name ++ q :: rest).dropWhile (· != q) = q :: rest := by
    refine dropWhile_append_cons (fun c hc => ?_) (by simp) rest
    simpa using fun heq : c = q => h (heq ▸ hc)
  simp [dropBetween?, hstop]

theorem dropBetween?_of_ne (h : c ≠ q) (cs : List Char) : dropBetween? q (c :: cs) = none := by
  simp [dropBetween?, h]

theorem backquoted_append (name rest : List Char) :
    backquoted name ++ rest = '\x60' :: (double '\x60' name ++ '\x60' :: rest) := by
  simp [backquoted, encloseChars]

theorem dropBetween?_backquoted (h : '\x60' ∉ name) (rest : List Char) :
    dropBetween? '\x60' (backquoted name ++ rest) = some rest := by
  rw [backquoted_append, double_of_notMem h, dropBetween?_append h]

/-- With a quote inside, a name is read up to there, and another quote is next. -/
theorem dropBetween?_backquoted_of_mem (h : '\x60' ∈ name) (rest : List Char) :
    ∃ left, dropBetween? '\x60' (backquoted name ++ rest)
      = some ('\x60' :: (left ++ '\x60' :: rest)) := by
  have hnot : ¬ ∀ c ∈ name, (c != '\x60') = true := fun hall => by simpa using hall _ h
  obtain ⟨before, c, after, rfl, hbefore, hc⟩ := exists_split_of_not_all hnot
  obtain rfl : c = '\x60' := by simpa using hc
  have hbefore : '\x60' ∉ before := fun hmem => by simpa using hbefore _ hmem
  refine ⟨double '\x60' after, ?_⟩
  rw [backquoted_append, double_append, double_of_notMem hbefore]
  simpa [double] using
    dropBetween?_append hbefore ('\x60' :: (double '\x60' after ++ '\x60' :: rest))

/-! ## Reading hosts -/

/-- The host behind the account's own at sign is read to its end just if no quote stands in
it. -/
theorem dropHost?_backquoted_iff (host tail : List Char) :
    dropHost? (backquoted host ++ tail) = some tail ↔ '\x60' ∉ host := by
  constructor
  · intro hread hmem
    obtain ⟨left, hleft⟩ := dropBetween?_backquoted_of_mem hmem tail
    rw [dropHost?, hleft] at hread
    have hlength := congrArg List.length (Option.some.inj hread)
    simp only [List.length_cons, List.length_append] at hlength
    omega
  · intro hhost
    rw [dropHost?, dropBetween?_backquoted hhost]
    rfl

theorem exists_dropHost?_backquoted (host tail : List Char) :
    ∃ rest, dropHost? (backquoted host ++ tail) = some rest := by
  by_cases hhost : '\x60' ∈ host
  · obtain ⟨left, hleft⟩ := dropBetween?_backquoted_of_mem hhost tail
    exact ⟨_, by rw [dropHost?, hleft]; rfl⟩
  · exact ⟨tail, (dropHost?_backquoted_iff host tail).mpr hhost⟩

/-- A bare host is read up to white space. -/
theorem dropHost?_bare_iff (hc : c ≠ '\x60' ∧ c ≠ '\x27') (cs : List Char)
    (htail : StartsBlank tail) :
    dropHost? (c :: (cs ++ tail)) = some tail ↔ ∀ d ∈ c :: cs, isBlank d = false := by
  obtain ⟨b, rest, rfl, hb⟩ := htail
  have hrun : dropHost? (c :: (cs ++ b :: rest))
      = dropRun? (fun d => !isBlank d) (c :: (cs ++ b :: rest)) := by
    rw [dropHost?, dropBetween?_of_ne hc.1, dropBetween?_of_ne hc.2]
    rfl
  rw [hrun]
  constructor
  · intro hread
    rw [dropRun?] at hread
    have hfirst : isBlank c = false := by
      by_contra hblank
      simp [hblank] at hread
    have hdropped : (cs ++ b :: rest).dropWhile (fun d => !isBlank d) = b :: rest := by
      simpa [hfirst] using hread
    by_contra hnot
    have hnot : ¬ ∀ d ∈ cs, (!isBlank d) = true := fun hall =>
      hnot (by simpa [hfirst] using hall)
    -- A blank further in front leaves more than the tail.
    obtain ⟨before, d, after, rfl, hbefore, hd⟩ := exists_split_of_not_all hnot
    rw [List.append_assoc, List.cons_append, dropWhile_append_cons hbefore hd] at hdropped
    have hlength := congrArg List.length hdropped
    simp only [List.length_cons, List.length_append] at hlength
    omega
  · intro hall
    exact dropRun?_append (by simpa using hall c List.mem_cons_self)
      (fun d hd => by simpa using hall d (List.mem_cons_of_mem c hd)) (by simpa using hb) rest

theorem dropHost?_of_dropBetween? (h : dropBetween? '\x60' cs = some rest) :
    dropHost? cs = some rest := by
  rw [dropHost?, h]
  rfl

/-- A host that begins with a single quote ends with one, and not with the backquote in front
of the tail. -/
theorem dropHost?_quote_ne (cs : List Char) (htail : '\x27' ∈ tail) :
    dropHost? ('\x27' :: (cs ++ '\x60' :: tail)) ≠ some tail := by
  intro hread
  have hmem : '\x27' ∈ cs ++ '\x60' :: tail := by simp [htail]
  have hnot : ¬ ∀ d ∈ cs ++ '\x60' :: tail, (d != '\x27') = true := fun hall => by
    simpa using hall _ hmem
  obtain ⟨before, d, after, hsplit, hbefore, hd⟩ := exists_split_of_not_all hnot
  obtain rfl : d = '\x27' := by simpa using hd
  have hbefore : '\x27' ∉ before := fun hmem => by simpa using hbefore _ hmem
  have hhost : dropHost? ('\x27' :: (cs ++ '\x60' :: tail)) = some after := by
    rw [dropHost?, dropBetween?_of_ne (by decide), hsplit, dropBetween?_append hbefore]
    rfl
  obtain rfl : after = tail := Option.some.inj (hhost.symm.trans hread)
  have hend : cs ++ ['\x60'] = before ++ ['\x27'] := by
    refine List.append_cancel_right (?_ : cs ++ ['\x60'] ++ after = before ++ ['\x27'] ++ after)
    simpa using hsplit
  simpa using congrArg List.getLast? hend

/-! ## Reading accounts -/

/-- The host behind a user name that `drop` reads. -/
def dropVia (drop : List Char → Option (List Char)) (cs : List Char) : Option (List Char) :=
  ((drop cs).bind (dropChar? '@')).bind dropHost?

theorem dropAccount?_eq (cs : List Char) :
    dropAccount? cs
      = (dropVia (dropBetween? '\x60') cs).or ((dropVia (dropBetween? '\x27') cs).or
        (dropVia (dropRun? isUserChar) cs)) := by
  change ([dropBetween? '\x60', dropBetween? '\x27', dropRun? isUserChar].findSome?
    fun drop => dropVia drop cs) = _
  simp only [List.findSome?]
  cases dropVia (dropBetween? '\x60') cs <;> cases dropVia (dropBetween? '\x27') cs <;>
    cases dropVia (dropRun? isUserChar) cs <;> rfl

theorem accountChars_append (user host tail : List Char) :
    accountChars user host ++ tail = backquoted user ++ '@' :: (backquoted host ++ tail) := by
  simp [accountChars]

/-- A user name without backquotes is read as a quoted one, and nothing else is tried. -/
theorem dropAccount?_of_notMem (huser : '\x60' ∉ user) (host tail : List Char) :
    dropAccount? (accountChars user host ++ tail) = dropHost? (backquoted host ++ tail) := by
  obtain ⟨rest, hrest⟩ := exists_dropHost?_backquoted host tail
  have hvia : dropVia (dropBetween? '\x60') (accountChars user host ++ tail)
      = dropHost? (backquoted host ++ tail) := by
    rw [dropVia, accountChars_append, dropBetween?_backquoted huser]
    simp [dropChar?]
  rw [dropAccount?_eq, hvia, hrest]
  rfl

/-- A user name with a backquote is read as a bare one or not at all. -/
theorem dropAccount?_of_mem (huser : '\x60' ∈ user) (host tail : List Char) :
    dropAccount? (accountChars user host ++ tail)
      = dropVia (dropRun? isUserChar) (accountChars user host ++ tail) := by
  have hback : dropVia (dropBetween? '\x60') (accountChars user host ++ tail) = none := by
    obtain ⟨left, hleft⟩ := dropBetween?_backquoted_of_mem huser
      ('@' :: (backquoted host ++ tail))
    rw [dropVia, accountChars_append, hleft]
    simp [dropChar?]
  have hsingle : dropVia (dropBetween? '\x27') (accountChars user host ++ tail) = none := by
    rw [dropVia, accountChars_append, backquoted_append, dropBetween?_of_ne (by decide)]
    rfl
  rw [dropAccount?_eq, hback, hsingle]
  rfl

theorem dropVia_run_of_all (huser : ∀ c ∈ user, isUserChar c = true) (host tail : List Char) :
    dropVia (dropRun? isUserChar) (accountChars user host ++ tail)
      = dropHost? (backquoted host ++ tail) := by
  have hname : ∀ c ∈ double '\x60' user ++ ['\x60'], isUserChar c = true := by
    intro c hc
    rcases List.mem_append.mp hc with hc | hc
    · exact huser c (mem_double.mp hc)
    · rw [List.mem_singleton.mp hc]
      decide
  have hrun := dropRun?_append (p := isUserChar) (d := '\x60') (c := '@') (by decide) hname
    (by decide) (backquoted host ++ tail)
  rw [dropVia, accountChars_append, backquoted_append]
  simp only [List.append_assoc, List.singleton_append] at hrun
  rw [hrun]
  simp [dropChar?]

/-- A bare user name ends at the first character that none may hold. -/
theorem dropVia_run_of_split {before after : List Char}
    (hbefore : ∀ d ∈ before, isUserChar d = true) (hc : isUserChar c = false)
    (host tail : List Char) :
    dropVia (dropRun? isUserChar) (accountChars (before ++ c :: after) host ++ tail)
      = (dropChar? '@' (c :: (double '\x60' after ++ '\x60' :: '@' ::
          (backquoted host ++ tail)))).bind dropHost? := by
  have hquote : c ≠ '\x60' := by
    rintro rfl
    exact absurd hc (by decide)
  have hname : ∀ d ∈ double '\x60' before, isUserChar d = true := fun d hd =>
    hbefore d (mem_double.mp hd)
  rw [dropVia, accountChars_append, backquoted_append, double_append, double, if_neg hquote,
    List.append_assoc, List.cons_append, dropRun?_append (by decide) hname hc]
  rfl

/-- Behind an at sign of the user name, the rest of the account is a bare host if nothing in
it is white space. -/
theorem dropHost?_split_iff (hc : c ≠ '\x60' ∧ c ≠ '\x27') (htail : StartsBlank tail)
    (after host : List Char) :
    dropHost? (double '\x60' (c :: after) ++ '\x60' :: '@' :: (backquoted host ++ tail))
        = some tail
      ↔ (∀ d ∈ c :: after, isBlank d = false) ∧ ∀ d ∈ host, isBlank d = false := by
  have hquote : isBlank '\x60' = false := by decide
  have hat : isBlank '@' = false := by decide
  have hbare := dropHost?_bare_iff hc
    (double '\x60' after ++ '\x60' :: '@' :: backquoted host) htail
  rw [double, if_neg hc.1, List.cons_append]
  simp only [List.append_assoc, List.cons_append] at hbare
  rw [hbare]
  simp [backquoted, encloseChars, or_imp, forall_and, hquote, hat, and_assoc]

/-- A tail in front of which each way to misread an account shows. -/
def telltale : List Char :=
  [' ', '\x27']

theorem startsBlank_telltale : StartsBlank telltale :=
  ⟨' ', ['\x27'], rfl, by decide⟩

theorem quoted_of_dropHost?_split {after : List Char}
    (h : dropHost? (double '\x60' after ++ '\x60' :: '@' :: (backquoted host ++ telltale))
      = some telltale) :
    ∃ c rest, after = c :: rest ∧ c ≠ '\x60' ∧ c ≠ '\x27' := by
  have hlonger : ∀ left : List Char, left ++ '\x60' :: telltale ≠ telltale := by
    intro left hsame
    have hlength := congrArg List.length hsame
    simp only [List.length_append, List.length_cons] at hlength
    omega
  cases after with
  | nil =>
      -- The at sign between the names is taken for a quoted host.
      have hread : dropBetween? '\x60'
          ('\x60' :: '@' :: (backquoted host ++ telltale))
            = some (double '\x60' host ++ '\x60' :: telltale) := by
        rw [backquoted_append]
        exact dropBetween?_append (by decide : '\x60' ∉ ['@']) _
      rw [double, List.nil_append, dropHost?_of_dropBetween? hread] at h
      exact absurd (Option.some.inj h) (hlonger _)
  | cons c rest =>
      refine ⟨c, rest, rfl, ?_, ?_⟩
      · rintro rfl
        -- A quote that was written twice is taken for an empty host.
        have hread : dropBetween? '\x60' ('\x60' :: '\x60' :: (double '\x60' rest ++ '\x60' ::
            '@' :: (backquoted host ++ telltale)))
              = some (double '\x60' rest ++ '\x60' :: '@' :: (backquoted host ++ telltale)) :=
          dropBetween?_append List.not_mem_nil _
        rw [double, if_pos rfl, List.cons_append, List.cons_append,
          dropHost?_of_dropBetween? hread, backquoted_append] at h
        refine absurd (Option.some.inj h) ?_
        simpa using hlonger (double '\x60' rest ++ '\x60' :: '@' :: '\x60' :: double '\x60' host)
      · rintro rfl
        rw [double, if_neg (by decide), backquoted_append] at h
        refine absurd h ?_
        simpa using dropHost?_quote_ne (double '\x60' rest ++ '\x60' :: '@' :: '\x60' ::
          double '\x60' host) (by decide : '\x27' ∈ telltale)

/-! ## Which accounts are recognised -/

theorem dropAccount?_of_recognised (h : Recognised user host) (htail : StartsBlank tail) :
    dropAccount? (accountChars user host ++ tail) = some tail := by
  cases h with
  | quoted huser hhost =>
      rw [dropAccount?_of_notMem huser, dropHost?_backquoted_iff]
      exact hhost
  | bare huser hhost =>
      by_cases hmem : '\x60' ∈ user
      · rw [dropAccount?_of_mem hmem, dropVia_run_of_all huser, dropHost?_backquoted_iff]
        exact hhost
      · rw [dropAccount?_of_notMem hmem, dropHost?_backquoted_iff]
        exact hhost
  | @split before after host c hquote hbefore hc hafter hhost =>
      have hmem : '\x60' ∈ before ++ '@' :: c :: after := by
        simp only [List.mem_append, List.mem_cons] at hquote ⊢
        tauto
      rw [dropAccount?_of_mem hmem, dropVia_run_of_split hbefore (by decide), dropChar?,
        if_pos rfl, Option.bind_some]
      exact (dropHost?_split_iff hc htail after host).mpr ⟨hafter, hhost⟩

theorem recognised_of_dropAccount?
    (h : dropAccount? (accountChars user host ++ telltale) = some telltale) :
    Recognised user host := by
  by_cases hmem : '\x60' ∈ user
  · rw [dropAccount?_of_mem hmem] at h
    by_cases hall : ∀ c ∈ user, isUserChar c = true
    · rw [dropVia_run_of_all hall, dropHost?_backquoted_iff] at h
      exact .bare hall h
    · obtain ⟨before, c, after, rfl, hbefore, hc⟩ := exists_split_of_not_all hall
      rw [dropVia_run_of_split hbefore hc] at h
      obtain rfl : c = '@' := by
        by_contra hat
        simp [dropChar?, hat] at h
      rw [dropChar?, if_pos rfl, Option.bind_some] at h
      obtain ⟨c, rest, rfl, hquote⟩ := quoted_of_dropHost?_split h
      obtain ⟨hafter, hhost⟩ :=
        (dropHost?_split_iff hquote startsBlank_telltale rest host).mp h
      refine .split ?_ hbefore hquote hafter hhost
      simp only [List.mem_append, List.mem_cons] at hmem ⊢
      simpa using hmem
  · rw [dropAccount?_of_notMem hmem, dropHost?_backquoted_iff] at h
    exact .quoted hmem h

/-! ## The clause -/

theorem stripDefinerChars_of_some (h : dropDefiner? cs = some rest) :
    stripDefinerChars cs = rest := by
  rw [stripDefinerChars.eq_def]
  cases cs with
  | nil => cases h
  | cons c cs => simp only [h]

theorem stripDefinerChars_of_none (h : dropDefiner? (c :: cs) = none) :
    stripDefinerChars (c :: cs) = c :: stripDefinerChars cs := by
  rw [stripDefinerChars.eq_def]
  simp only [h]

theorem dropDefiner?_of_not_blank (hc : isBlank c = false) (cs : List Char) :
    dropDefiner? (c :: cs) = none := by
  rw [dropDefiner?, dropRun?, hc]
  rfl

/-- No clause begins inside a word. -/
theorem stripDefinerChars_append {word : List Char} (hword : word.any isBlank = false)
    (cs : List Char) : stripDefinerChars (word ++ cs) = word ++ stripDefinerChars cs := by
  induction word with
  | nil => rfl
  | cons c word ih =>
      rw [List.any_cons, Bool.or_eq_false_iff] at hword
      rw [List.cons_append, stripDefinerChars_of_none (dropDefiner?_of_not_blank hword.1 _),
        ih hword.2, List.cons_append]

/-- A clause is known by its account. -/
theorem dropDefiner?_clause (hc : isBlank c = false) (cs : List Char) :
    dropDefiner? (" DEFINER=".toList ++ c :: cs) = dropAccount? (c :: cs) := by
  have hrun : dropRun? isBlank (" DEFINER=".toList ++ c :: cs)
      = some ("DEFINER=".toList ++ c :: cs) := rfl
  have hword : dropWord? "definer".toList ("DEFINER=".toList ++ c :: cs)
      = some ('=' :: c :: cs) := rfl
  have hsign : dropChar? '=' (('=' :: c :: cs).dropWhile isBlank) = some (c :: cs) := rfl
  have haccount : (c :: cs).dropWhile isBlank = c :: cs := by simp [hc]
  rw [dropDefiner?, hrun, Option.bind_eq_bind, Option.bind_some, hword, Option.bind_some, hsign,
    Option.bind_some, haccount]

/-- A creation with its account and the rest of it, as MySQL shows it. -/
def definedChars (user host tail : List Char) : List Char :=
  "CREATE".toList ++ (" DEFINER=".toList ++ (accountChars user host ++ tail))

theorem dropDefiner?_defined (user host tail : List Char) :
    dropDefiner? (" DEFINER=".toList ++ (accountChars user host ++ tail))
      = dropAccount? (accountChars user host ++ tail) := by
  rw [accountChars_append, backquoted_append]
  exact dropDefiner?_clause (by decide) _

theorem stripDefinerChars_of_account
    (h : dropAccount? (accountChars user host ++ tail) = some rest) :
    stripDefinerChars (definedChars user host tail) = "CREATE".toList ++ rest := by
  unfold definedChars
  rw [stripDefinerChars_append (by decide),
    stripDefinerChars_of_some ((dropDefiner?_defined user host tail).trans h)]

/-- A clause that is cut out was known by its account, unless the rest of the creation looks
like another one. -/
theorem account_of_stripDefinerChars
    (h : stripDefinerChars (definedChars user host tail) = "CREATE".toList ++ tail)
    (htail : tail.tail.head? ≠ some 'D') :
    dropAccount? (accountChars user host ++ tail) = some tail := by
  cases hread : dropAccount? (accountChars user host ++ tail) with
  | some rest =>
      rw [stripDefinerChars_of_account hread] at h
      exact congrArg some (List.append_cancel_left h)
  | none =>
      have hclause : dropDefiner? (' ' :: ("DEFINER=".toList ++ (accountChars user host ++ tail)))
          = none := (dropDefiner?_defined user host tail).trans hread
      have hkept : stripDefinerChars (definedChars user host tail)
          = "CREATE".toList ++ ' ' :: ("DEFINER=".toList ++
            stripDefinerChars (accountChars user host ++ tail)) := by
        unfold definedChars
        rw [stripDefinerChars_append (by decide)]
        refine congrArg ("CREATE".toList ++ ·) ((stripDefinerChars_of_none hclause).trans ?_)
        rw [stripDefinerChars_append (by decide)]
      rw [hkept] at h
      refine absurd ?_ htail
      rw [← List.append_cancel_left h]
      rfl

end Reconcile.Text

namespace Reconcile

open Text

/-- A creation with its account and the rest of it, as MySQL shows it. -/
def MySql.shownCreation (user host tail : String) : String :=
  "CREATE DEFINER=" ++ Dialect.mySql.quote user ++ "@" ++ Dialect.mySql.quote host ++ tail

theorem toList_shownCreation (user host tail : String) :
    (MySql.shownCreation user host tail).toList
      = definedChars user.toList host.toList tail.toList := by
  have hstart : "CREATE DEFINER=".toList = "CREATE".toList ++ " DEFINER=".toList := by decide
  have hsign : "@".toList = ['@'] := by decide
  unfold MySql.shownCreation definedChars
  simp only [String.toList_append, Dialect.quote, toList_enclose, hstart, hsign, accountChars,
    backquoted, List.append_assoc, List.cons_append, List.nil_append,
    Dialect.openingQuote, Dialect.closingQuote]

/-- The clause with the account is cut out of every creation, and nothing else is, just if
the account is read to its end. -/
theorem stripDefiner_iff (user host : String) :
    (∀ tail : String, StartsBlank tail.toList →
      stripDefiner (MySql.shownCreation user host tail) = "CREATE" ++ tail)
    ↔ Recognised user.toList host.toList := by
  have hstrip : ∀ tail : String,
      stripDefiner (MySql.shownCreation user host tail) = "CREATE" ++ tail
        ↔ stripDefinerChars (definedChars user.toList host.toList tail.toList)
          = "CREATE".toList ++ tail.toList := by
    intro tail
    rw [← String.toList_inj, stripDefiner, String.toList_ofList, toList_shownCreation,
      String.toList_append]
  constructor
  · intro hall
    have htold := (hstrip " \x27").mp (hall " \x27" startsBlank_telltale)
    exact recognised_of_dropAccount? (account_of_stripDefinerChars htold (by decide))
  · intro hrecognised tail htail
    exact (hstrip tail).mpr
      (stripDefinerChars_of_account (dropAccount?_of_recognised hrecognised htail))

example : stripDefiner "CREATE DEFINER=\x60root\x60@\x60%\x60 PROCEDURE \x60p\x60()"
    = "CREATE PROCEDURE \x60p\x60()" := by
  decide +kernel

/-- A blank behind a backquote, and the account stays.  A backquote in the name of the host,
and only a part of the account is cut out. -/
theorem stripDefiner_keeps_account :
    let tail := " PROCEDURE \x60p\x60()"
    StartsBlank tail.toList
    ∧ stripDefiner (MySql.shownCreation "web\x60 app" "%" tail)
      = MySql.shownCreation "web\x60 app" "%" tail
    ∧ stripDefiner (MySql.shownCreation "web\x60 app" "%" tail) ≠ "CREATE" ++ tail
    ∧ stripDefiner (MySql.shownCreation "root" "a\x60b" tail)
      = "CREATE\x60b\x60 PROCEDURE \x60p\x60()" := by
  refine ⟨⟨' ', _, rfl, by decide⟩, ?_, ?_, ?_⟩ <;> decide +kernel

end Reconcile
