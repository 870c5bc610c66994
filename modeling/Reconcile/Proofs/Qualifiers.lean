import Reconcile.Catalog.MySql
import Reconcile.Proofs.Names
import Reconcile.Proofs.Removals

/-!
# Which qualifiers are taken off

A view is stored with the name of its database in front of the names of the tables.  It is taken
off by removing the quoted name and the dot wherever they occur in the text, and no name is read
for that.  Every chain that begins with the database loses it, as it should; whether something
else is lost as well depends on where else those characters occur.

For all definitions that is the exact condition: the qualifier begins nowhere in what should stay
(`StoredText.Unambiguous`).  Reading turns it into one on names.  A quoted name is a prefix code,
so at the quote in front of a name the qualifier begins just if the name is the database's and a
dot follows.  Behind a backquote inside a name it begins just if the rest of the name is the
database's and a dot follows.  Behind a name, or between the two characters that stand for one
backquote, the text outside of the names is read as if it was inside of one, up to the next name;
what comes then would have to be a dot, and is the first character of that name.

So in definitions where no name begins with a dot a chain is damaged just if one of its names that
others follow is the database's, though it is not the first, or ends like the database's behind a
backquote (`Chain.Misread`).
-/

namespace Reconcile.MySql

/-! ## Stored definitions -/

def quoted (name : String) : List Char :=
  (Dialect.mySql.quote name).toList

/-- The text between two chains, in front of the first or behind the last. -/
structure Gap where
  chars : List Char
  noQuote : '\x60' ∉ chars
  noDot : '.' ∉ chars

/-- Names with dots between them. -/
structure Chain where
  first : String
  more : List String

namespace Chain

def names (c : Chain) : List String :=
  c.first :: c.more

def chars (c : Chain) : List Char :=
  quoted c.first ++ c.more.flatMap fun name => '.' :: quoted name

/-- The chain without its first name, if that is the database's and others follow. -/
def unqualified (database : String) : Chain → Chain
  | ⟨first, []⟩ => ⟨first, []⟩
  | ⟨first, second :: more⟩ =>
      if first = database then ⟨second, more⟩ else ⟨first, second :: more⟩

/-- A name that others follow, and that is not the first one, is the database's; or one ends
like the database's, behind a backquote. -/
def Misread (database : String) (c : Chain) : Prop :=
  database ∈ c.more.dropLast
    ∨ ∃ name ∈ c.names.dropLast, '\x60' :: database.toList <:+ name.toList

instance (database : String) : DecidablePred (Misread database) := fun _ =>
  inferInstanceAs (Decidable (_ ∨ _))

end Chain

/-- Chains with text around them. -/
inductive StoredText where
  | plain (gap : Gap)
  | chain (gap : Gap) (c : Chain) (rest : StoredText)

namespace StoredText

def chars : StoredText → List Char
  | plain gap => gap.chars
  | chain gap c rest => gap.chars ++ (c.chars ++ rest.chars)

def text (d : StoredText) : String :=
  String.ofList d.chars

def chains : StoredText → List Chain
  | plain _ => []
  | chain _ c rest => c :: rest.chains

def unqualified (database : String) : StoredText → StoredText
  | plain gap => plain gap
  | chain gap c rest => chain gap (c.unqualified database) (rest.unqualified database)

end StoredText

/-! ## What should stay -/

/-- What is removed to take the database off a chain. -/
def qualifier (database : String) : List Char :=
  quoted database ++ ['.']

/-- What should stay of a definition, cut where a qualifier should go. -/
def StoredText.pieces (database : String) : StoredText → List Char × List (List Char)
  | plain gap => (gap.chars, [])
  | chain gap c rest =>
      let later := rest.pieces database
      if c.first = database ∧ c.more ≠ [] then
        (gap.chars, ((c.unqualified database).chars ++ later.1) :: later.2)
      else (gap.chars ++ (c.chars ++ later.1), later.2)

/-- The database's qualifier begins nowhere in what should stay. -/
def StoredText.Unambiguous (database : String) (d : StoredText) : Prop :=
  Text.StaysOut (qualifier database) (d.pieces database).1 (d.pieces database).2

variable {database : String} {c : Chain} {d : StoredText} {rest : List Char}

theorem quoted_eq (name : String) :
    quoted name = '\x60' :: (Text.double '\x60' name.toList ++ ['\x60']) := by
  rw [quoted, Dialect.quote, Text.toList_enclose]
  rfl

theorem Chain.unqualified_of_local (h : c.first = database ∧ c.more ≠ []) :
    c.chars = qualifier database ++ (c.unqualified database).chars := by
  obtain ⟨first, more⟩ := c
  obtain ⟨rfl, hmore⟩ := h
  obtain ⟨second, more, rfl⟩ := List.exists_cons_of_ne_nil hmore
  simp [Chain.unqualified, Chain.chars, qualifier]

theorem Chain.unqualified_of_not_local (h : ¬ (c.first = database ∧ c.more ≠ [])) :
    c.unqualified database = c := by
  obtain ⟨first, _ | ⟨second, more⟩⟩ := c
  · rfl
  · rw [Chain.unqualified, if_neg (by simpa using h)]

theorem laid_pieces (database : String) (d : StoredText) :
    Text.laid (qualifier database) (d.pieces database).1 (d.pieces database).2 = d.chars := by
  induction d with
  | plain gap => exact Text.laid_nil
  | chain gap c rest ih =>
      rw [StoredText.pieces, StoredText.chars, ← ih]
      split
      case isTrue h =>
        rw [Text.laid_cons, Text.laid_append, Chain.unqualified_of_local h, List.append_assoc]
      case isFalse => rw [Text.laid_append, Text.laid_append]

theorem flatten_pieces (database : String) (d : StoredText) :
    (d.pieces database).1 ++ (d.pieces database).2.flatten = (d.unqualified database).chars := by
  induction d with
  | plain gap => simp [StoredText.pieces, StoredText.unqualified, StoredText.chars]
  | chain gap c rest ih =>
      rw [StoredText.pieces, StoredText.unqualified, StoredText.chars, ← ih]
      split
      case isTrue h => simp
      case isFalse h => simp [Chain.unqualified_of_not_local h]

theorem getLast?_qualifier (database : String) : (qualifier database).getLast? = some '.' := by
  simp [qualifier]

theorem Gap.getLast?_ne (gap : Gap) : gap.chars.getLast? ≠ some '.' :=
  fun h => gap.noDot (List.mem_of_getLast? h)

theorem Chain.chars_cons (first second : String) (more : List String) :
    Chain.chars ⟨first, second :: more⟩ = quoted first ++ '.' :: Chain.chars ⟨second, more⟩ := by
  simp [Chain.chars]

theorem Chain.getLast?_chars (c : Chain) : c.chars.getLast? = some '\x60' := by
  obtain ⟨first, more⟩ := c
  induction more generalizing first with
  | nil => simp [Chain.chars, quoted_eq, List.getLast?_cons]
  | cons second more ih =>
      rw [Chain.chars_cons, List.getLast?_append_of_ne_nil _ (List.cons_ne_nil _ _),
        List.getLast?_cons, ih second]
      rfl

theorem endsApart_pieces (database : String) (d : StoredText) :
    Text.EndsApart (qualifier database) (d.pieces database).1 (d.pieces database).2 := by
  induction d with
  | plain gap => trivial
  | chain gap c rest ih =>
      have hgap : gap.chars.getLast? ≠ (qualifier database).getLast? := by
        rw [getLast?_qualifier]
        exact gap.getLast?_ne
      have hchain (c : Chain) : c.chars.getLast? ≠ (qualifier database).getLast? := by
        rw [getLast?_qualifier, c.getLast?_chars]
        decide
      rw [StoredText.pieces]
      split
      case isTrue h =>
        refine ⟨hgap, fun _ hnil => ?_, ih.append (hchain _)⟩
        have hlast := (c.unqualified database).getLast?_chars
        rw [(List.append_eq_nil_iff.mp hnil).1] at hlast
        cases hlast
      case isFalse => exact (ih.append (hchain c)).append hgap

theorem qualifier_ne_nil (database : String) : qualifier database ≠ [] := by
  simp [qualifier]

theorem toList_unqualify (database definition : String) :
    (unqualify database definition).toList
      = Text.removeFrom (qualifier database) 0 definition.toList := by
  simp [unqualify, Text.removeAll, qualifier, quoted]

theorem unqualify_text_iff (database : String) (d : StoredText) :
    unqualify database d.text = (d.unqualified database).text ↔ d.Unambiguous database := by
  rw [← String.toList_inj, toList_unqualify, StoredText.text, StoredText.text, String.toList_ofList,
    String.toList_ofList, ← laid_pieces database d, ← flatten_pieces]
  exact Text.removeFrom_laid_iff (qualifier_ne_nil database) (endsApart_pieces database d)

/-! ## Where the qualifier begins -/

/-- The name begins with a dot neither at once nor behind backquotes, and not only backquotes
are in it. -/
def Opens (name : String) : Prop :=
  (name.toList.find? (· ≠ '\x60')).any (· ≠ '.') = true

instance : DecidablePred Opens := fun name =>
  inferInstanceAs (Decidable ((name.toList.find? (· ≠ '\x60')).any (· ≠ '.') = true))

/-- The text does not go on with a backquote, and read as if it was the inside of a name it does
not end in front of a dot. -/
def Outside (rest : List Char) : Prop :=
  rest.head? ≠ some '\x60'
    ∧ ∀ inner after, Text.untilClosing? '\x60' rest = some (inner, after) →
      after.head? ≠ some '.'

variable {name gap inner after cs : List Char}

theorem outside_of_notMem (h : '\x60' ∉ rest) : Outside rest := by
  refine ⟨fun hhead => h (List.mem_of_head? hhead), fun inner after hread => ?_⟩
  have hnone := Text.untilClosing?_append_of_notMem h []
  rw [List.append_nil, hread] at hnone
  simp [Text.untilClosing?] at hnone

/-- Read as if it was the end of another name, the quote in front of a name ends that name, with
or without the backquotes that follow. -/
theorem untilClosing?_opens {c : Char} (h : name.find? (· ≠ '\x60') = some c)
    (rest : List Char) :
    ∃ inner after, Text.untilClosing? '\x60' ('\x60' :: (Text.double '\x60' name ++ rest))
      = some (inner, c :: after) := by
  induction name with
  | nil => cases h
  | cons d name ih =>
      by_cases hd : d = '\x60'
      · subst hd
        obtain ⟨inner, after, hread⟩ := ih (by simpa using h)
        refine ⟨'\x60' :: inner, after, ?_⟩
        simp [Text.double, Text.untilClosing?_pair, hread]
      · obtain rfl : d = c := by simpa [hd] using h
        refine ⟨[], Text.double '\x60' name ++ rest, ?_⟩
        rw [Text.double, if_neg hd, List.cons_append]
        exact Text.untilClosing?_end (by simpa using hd)

theorem outside_of_opens {name : String} (hgap : '\x60' ∉ gap) (hnil : gap ≠ [])
    (hname : Opens name) (rest : List Char) : Outside (gap ++ (quoted name ++ rest)) := by
  obtain ⟨c, hfind, hc⟩ := (Option.any_eq_true _ _).mp hname
  obtain ⟨inner, after, hread⟩ := untilClosing?_opens hfind ('\x60' :: rest)
  constructor
  · rw [List.head?_append_of_ne_nil _ hnil]
    exact fun hhead => hgap (List.mem_of_head? hhead)
  · intro inner' after' hread'
    rw [Text.untilClosing?_append_of_notMem hgap, quoted_eq, List.cons_append, List.append_assoc,
      List.singleton_append, hread] at hread'
    cases hread'
    simpa using hc

theorem qualifier_prefix_iff :
    qualifier database <+: '\x60' :: cs
      ↔ ∃ after, Text.untilClosing? '\x60' cs = some (database.toList, '.' :: after) := by
  have hread : Text.encloseChars '\x60' '\x60' database.toList ++ ['.'] <+: '\x60' :: cs ↔ _ :=
    Text.enclosed_prefix_iff (by decide)
  rw [qualifier, quoted, Dialect.quote, Text.toList_enclose]
  exact hread

theorem not_qualifier_prefix_of_ne {c : Char} (hc : c ≠ '\x60') :
    ¬ qualifier database <+: c :: cs := by
  rw [qualifier, quoted_eq, List.cons_append, List.cons_prefix_cons]
  exact fun h => hc h.1.symm

/-- Between the two characters that stand for a backquote no qualifier begins. -/
theorem head?_of_read_between (hrest : Outside rest) {read : List Char}
    (hread : ∃ c ∈ read, c ≠ '\x60')
    (h : Text.untilClosing? '\x60' ('\x60' :: (Text.double '\x60' name ++ '\x60' :: rest))
      = some (read, after)) :
    after.head? ≠ some '.' := by
  induction name generalizing read with
  | nil =>
      rw [Text.double, List.nil_append, Text.untilClosing?_pair] at h
      obtain ⟨⟨inner, after⟩, hinner, hpair⟩ := Option.map_eq_some_iff.mp h
      cases hpair
      exact hrest.2 _ _ hinner
  | cons c name ih =>
      by_cases hc : c = '\x60'
      · subst hc
        simp only [Text.double, if_true, List.cons_append, Text.untilClosing?_pair] at h
        obtain ⟨⟨inner, after⟩, hinner, hpair⟩ := Option.map_eq_some_iff.mp h
        cases hpair
        exact ih (by simpa using hread) hinner
      · rw [Text.double, if_neg hc, List.cons_append,
          Text.untilClosing?_end (by simpa using hc)] at h
        cases h
        simp at hread

theorem not_qualifier_prefix_of_outside (hrest : Outside rest) :
    ¬ qualifier database <+: '\x60' :: rest := by
  rw [qualifier_prefix_iff]
  rintro ⟨after, hread⟩
  exact hrest.2 _ _ hread rfl

theorem beginsNowhere_double_iff (hdatabase : ∃ c ∈ database.toList, c ≠ '\x60')
    (hrest : Outside rest) (name : List Char) :
    Text.BeginsNowhere (qualifier database) (Text.double '\x60' name ++ ['\x60']) rest
      ↔ (rest.head? = some '.' → ¬ '\x60' :: database.toList <:+ name) := by
  induction name with
  | nil =>
      simp [Text.double, Text.beginsNowhere_cons, Text.beginsNowhere_nil,
        not_qualifier_prefix_of_outside hrest]
  | cons c name ih =>
      by_cases hc : c = '\x60'
      · subst hc
        have hbetween : ¬ qualifier database
            <+: '\x60' :: '\x60' :: (Text.double '\x60' name ++ '\x60' :: rest) := by
          rw [qualifier_prefix_iff]
          rintro ⟨after, hread⟩
          exact head?_of_read_between hrest hdatabase hread rfl
        have hsecond : qualifier database
            <+: '\x60' :: (Text.double '\x60' name ++ '\x60' :: rest)
              ↔ database.toList = name ∧ rest.head? = some '.' := by
          rw [qualifier_prefix_iff, Text.untilClosing?_double hrest.1]
          simp [List.head?_eq_some_iff, eq_comm]
        simp only [Text.double, if_true, List.cons_append, List.append_assoc, List.nil_append,
          Text.beginsNowhere_cons, hbetween, hsecond, ih, List.suffix_cons_iff, List.cons.injEq,
          true_and, not_false_eq_true, not_or, imp_and, not_and']
      · rw [Text.double, if_neg hc, List.cons_append, Text.beginsNowhere_cons, ih]
        simp [not_qualifier_prefix_of_ne hc, List.suffix_cons_iff, Ne.symm hc]

theorem beginsNowhere_quoted_iff (hdatabase : ∃ c ∈ database.toList, c ≠ '\x60')
    (hrest : Outside rest) (name : String) :
    Text.BeginsNowhere (qualifier database) (quoted name) rest
      ↔ (rest.head? = some '.' →
          name ≠ database ∧ ¬ '\x60' :: database.toList <:+ name.toList) := by
  have hwhole : qualifier database
      <+: '\x60' :: (Text.double '\x60' name.toList ++ ['\x60'] ++ rest)
        ↔ name = database ∧ rest.head? = some '.' := by
    rw [qualifier_prefix_iff, List.append_assoc, List.singleton_append,
      Text.untilClosing?_double hrest.1]
    simp [List.head?_eq_some_iff, String.toList_inj]
  rw [quoted_eq, Text.beginsNowhere_cons, hwhole, beginsNowhere_double_iff hdatabase hrest,
    not_and', imp_and]

theorem Chain.outside {c : Chain} (hgap : '\x60' ∉ gap) (hnil : gap ≠ []) (h : Opens c.first)
    (rest : List Char) : Outside (gap ++ (c.chars ++ rest)) := by
  rw [Chain.chars, List.append_assoc]
  exact outside_of_opens hgap hnil h _

theorem beginsNowhere_chars_iff (hdatabase : ∃ c ∈ database.toList, c ≠ '\x60')
    (hrest : Outside rest) (hdot : rest.head? ≠ some '.') (c : Chain)
    (hnames : ∀ name ∈ c.names, Opens name) :
    Text.BeginsNowhere (qualifier database) c.chars rest
      ↔ ∀ name ∈ c.names.dropLast,
          name ≠ database ∧ ¬ '\x60' :: database.toList <:+ name.toList := by
  obtain ⟨first, more⟩ := c
  induction more generalizing first with
  | nil => simp [Chain.chars, Chain.names, beginsNowhere_quoted_iff hdatabase hrest, hdot]
  | cons second more ih =>
      obtain ⟨-, hnames⟩ := List.forall_mem_cons.mp hnames
      have houtside : Outside ('.' :: (Chain.chars ⟨second, more⟩ ++ rest)) := by
        rw [← List.singleton_append]
        exact Chain.outside (by decide) (by simp) (hnames _ List.mem_cons_self) rest
      rw [Chain.chars_cons, Text.beginsNowhere_append, List.cons_append,
        beginsNowhere_quoted_iff hdatabase houtside, Text.beginsNowhere_cons, ih second hnames]
      simp [Chain.names, not_qualifier_prefix_of_ne]

/-- A definition where names can be told from what is between them: no name begins with a dot, as
far as backquotes do not count, and two chains do not touch. -/
def StoredText.Readable : StoredText → Prop
  | plain _ => True
  | chain _ c rest =>
      (∀ name ∈ c.names, Opens name) ∧ rest.chars.head? ≠ some '\x60' ∧ rest.Readable

theorem StoredText.Readable.outside (h : d.Readable) (hhead : d.chars.head? ≠ some '\x60') :
    Outside d.chars := by
  cases d with
  | plain gap => exact outside_of_notMem gap.noQuote
  | chain gap c rest =>
      refine Chain.outside gap.noQuote ?_ (h.1 _ List.mem_cons_self) _
      intro hnil
      simp [chars, hnil, Chain.chars, quoted_eq] at hhead

theorem StoredText.head?_ne_dot (d : StoredText) : d.chars.head? ≠ some '.' := by
  intro hhead
  cases d with
  | plain gap => exact gap.noDot (List.mem_of_head? hhead)
  | chain gap c rest =>
      by_cases hnil : gap.chars = []
      · simp [chars, hnil, Chain.chars, quoted_eq] at hhead
      · rw [chars, List.head?_append_of_ne_nil _ hnil] at hhead
        exact gap.noDot (List.mem_of_head? hhead)

theorem Chain.names_unqualified (c : Chain) : (c.unqualified database).names ⊆ c.names := by
  obtain ⟨first, _ | ⟨second, more⟩⟩ := c
  · exact List.Subset.refl _
  · rw [unqualified]
    split
    · exact List.subset_cons_self first (second :: more)
    · exact List.Subset.refl _

theorem Chain.not_misread_iff (c : Chain) :
    ¬ c.Misread database
      ↔ ∀ name ∈ (c.unqualified database).names.dropLast,
          name ≠ database ∧ ¬ '\x60' :: database.toList <:+ name.toList := by
  obtain ⟨first, _ | ⟨second, more⟩⟩ := c
  · simp [Misread, unqualified, names]
  · have hnames : (Chain.names ⟨first, second :: more⟩).dropLast
        = first :: (second :: more).dropLast := rfl
    have hself : ¬ '\x60' :: database.toList <:+ database.toList :=
      fun hsuffix => absurd hsuffix.length_le (by simp)
    rw [Misread, hnames, unqualified]
    split
    case isTrue h =>
      subst h
      simp only [names]
      generalize (second :: more).dropLast = between
      simp [hself, imp_and, forall_and, List.forall_mem_ne']
    case isFalse h =>
      rw [hnames]
      generalize (second :: more).dropLast = between
      simp [h, imp_and, forall_and, List.forall_mem_ne']

theorem unambiguous_iff (hdatabase : ∃ c ∈ database.toList, c ≠ '\x60') (h : d.Readable) :
    d.Unambiguous database ↔ ∀ c ∈ d.chains, ¬ c.Misread database := by
  have hgap (gap : Gap) (rest : List Char) :
      Text.BeginsNowhere (qualifier database) gap.chars rest := by
    rw [qualifier, quoted_eq]
    exact Text.beginsNowhere_of_notMem gap.noQuote
  induction d with
  | plain gap => exact iff_of_true (hgap gap []) (by simp [StoredText.chains])
  | chain gap c rest ih =>
      obtain ⟨hnames, hhead, hrest⟩ := h
      have hchain : Text.BeginsNowhere (qualifier database) (c.unqualified database).chars
            rest.chars
          ↔ ¬ c.Misread database := by
        rw [c.not_misread_iff]
        exact beginsNowhere_chars_iff hdatabase (hrest.outside hhead) rest.head?_ne_dot _
          fun name hname => hnames name (c.names_unqualified hname)
      have hlater : rest.Unambiguous database ↔ ∀ c ∈ rest.chains, ¬ c.Misread database :=
        ih hrest
      rw [StoredText.chains, List.forall_mem_cons, ← hchain, ← hlater, StoredText.Unambiguous,
        StoredText.Unambiguous, StoredText.pieces]
      split
      case isTrue h =>
        rw [Text.StaysOut, Text.staysOut_append, laid_pieces]
        exact and_iff_right (hgap gap _)
      case isFalse h =>
        rw [Text.staysOut_append, Text.staysOut_append, laid_pieces,
          Chain.unqualified_of_not_local h]
        exact and_iff_right (hgap gap _)

/-- Taking the database off a definition does what it should just if its qualifier begins nowhere
in what should stay.  Where names can be told from what is between them, that is so just if no
chain is misread. -/
theorem unqualify_iff (database : String) (d : StoredText) :
    (unqualify database d.text = (d.unqualified database).text ↔ d.Unambiguous database)
    ∧ ((∃ c ∈ database.toList, c ≠ '\x60') → d.Readable →
      (unqualify database d.text = (d.unqualified database).text
        ↔ ∀ c ∈ d.chains, ¬ c.Misread database)) := by
  refine ⟨unqualify_text_iff database d, fun hdatabase hd => ?_⟩
  rw [unqualify_text_iff, unambiguous_iff hdatabase hd]

/-- Two names become one where the first ends like the database's. -/
example : unqualify "shop" "\x60x\x60\x60shop\x60.\x60t\x60" = "\x60x\x60\x60t\x60" := by
  decide

/-- A column of a table, and the table, as two chains of a view. -/
def selection (column table : Chain) : StoredText :=
  .chain ⟨"select ".toList, by decide, by decide⟩ column
    (.chain ⟨" from ".toList, by decide, by decide⟩ table (.plain ⟨[], by decide, by decide⟩))

/-- The database is taken off the chain of the column and off that of the table. -/
theorem unqualify_iff_items :
    let view := selection ⟨"shop", ["items", "id"]⟩ ⟨"shop", ["items"]⟩
    view.Readable
    ∧ view.text = "select \x60shop\x60.\x60items\x60.\x60id\x60 from \x60shop\x60.\x60items\x60"
    ∧ unqualify "shop" view.text = (view.unqualified "shop").text
    ∧ (view.unqualified "shop").text = "select \x60items\x60.\x60id\x60 from \x60items\x60" := by
  intro view
  have hreadable : view.Readable := ⟨by decide, by decide, by decide, by decide, trivial⟩
  refine ⟨hreadable, by decide, ?_, by decide⟩
  have hletter : ∃ c ∈ "shop".toList, c ≠ '\x60' := ⟨'s', by decide, by decide⟩
  exact ((unqualify_iff "shop" view).2 hletter hreadable).mpr (by decide)

/-- A table of another database that is called like this database loses its name. -/
theorem unqualify_damages_audit :
    let view := selection ⟨"audit", ["shop", "id"]⟩ ⟨"audit", ["shop"]⟩
    (view.unqualified "shop").text = view.text
    ∧ view.text = "select \x60audit\x60.\x60shop\x60.\x60id\x60 from \x60audit\x60.\x60shop\x60"
    ∧ unqualify "shop" view.text = "select \x60audit\x60.\x60id\x60 from \x60audit\x60.\x60shop\x60"
    ∧ unqualify "shop" view.text ≠ (view.unqualified "shop").text := by
  decide

end Reconcile.MySql
