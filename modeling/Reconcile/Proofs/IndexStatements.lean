import Reconcile.Catalog.MySql
import Reconcile.Proofs.ColumnShapes
import Reconcile.Proofs.Plans
import Reconcile.Proofs.Wording

/-!
# Statements that create MySQL indexes

An index that differs from the one in the database is dropped and created anew.  That changes
something only if the new statement is another one than the statement of the old index.  The
first words of a statement tell the kinds apart (`start_exclusive`), and from the text between
its brackets every column can be read back, with its length and its direction
(`listed_append_inj`).  What a statement may leave out is the type: it is written for indexes
that are neither unique nor primary (`createIndex_eq_iff`), so a unique index that turns from
a tree into a hash is created as it was (`createIndex_changes_iff`).
-/

namespace Reconcile

/-! ## Indexes of the catalog -/

/-- The types that indexes have in the catalog. -/
def MySql.indexTypes : List String :=
  ["BTREE", "HASH", "FULLTEXT", "SPATIAL"]

/-- An index as it is read from the catalog, where name, uniqueness and type decide its kind. -/
def Index.Crawled (i : Index) : Prop :=
  ∃ indexType ∈ MySql.indexTypes, ∃ nonUnique : Int64,
    i.kind = MySql.indexKind i.name nonUnique indexType ∧ i.extension = .mySql indexType

/-- What is neither primary nor of a type of its own is unique or not. -/
theorem MySql.indexKind_of_plain {name indexType : String} {nonUnique : Int64}
    (hname : name ≠ "PRIMARY") (hfulltext : Text.sameFolded indexType "FULLTEXT" = false)
    (hspatial : Text.sameFolded indexType "SPATIAL" = false) :
    indexKind name nonUnique indexType = .unique
      ∨ indexKind name nonUnique indexType = .index := by
  unfold indexKind
  rw [if_neg hname, hfulltext, hspatial]
  by_cases hunique : nonUnique = 0
  · left
    simp [hunique]
  · right
    simp [hunique]

/-- Types that an index of a kind may have. -/
def IndexKind.Allows (kind : IndexKind) (extension : IndexExtension) : Prop :=
  match kind with
  | .primaryKey => True
  | .uniqueConstraint => False
  | .fulltext => extension = .mySql "FULLTEXT"
  | .spatial => extension = .mySql "SPATIAL"
  | .unique | .index => extension = .mySql "BTREE" ∨ extension = .mySql "HASH"

theorem IndexKind.Allows.of_plain {kind : IndexKind} {extension : IndexExtension}
    (hkind : kind = .unique ∨ kind = .index)
    (h : extension = .mySql "BTREE" ∨ extension = .mySql "HASH") : kind.Allows extension := by
  rcases hkind with rfl | rfl
  · exact h
  · exact h

theorem Index.Crawled.allows {i : Index} (h : i.Crawled) : i.kind.Allows i.extension := by
  obtain ⟨indexType, htype, nonUnique, hkind, hextension⟩ := h
  rw [hkind, hextension]
  by_cases hname : i.name = "PRIMARY"
  · rw [MySql.indexKind, if_pos hname]
    trivial
  · simp only [MySql.indexTypes, List.mem_cons, List.not_mem_nil, or_false] at htype
    rcases htype with rfl | rfl | rfl | rfl
    · exact .of_plain (MySql.indexKind_of_plain hname (by decide) (by decide)) (Or.inl rfl)
    · exact .of_plain (MySql.indexKind_of_plain hname (by decide) (by decide)) (Or.inr rfl)
    · rw [MySql.indexKind, if_neg hname]
      rfl
    · rw [MySql.indexKind, if_neg hname]
      rfl

theorem Index.Crawled.kind_ne {i : Index} (h : i.Crawled) : i.kind ≠ .uniqueConstraint := by
  intro hkind
  have hallows := h.allows
  rw [hkind] at hallows
  exact hallows

namespace MySql

theorem addToGroup_crawled {r : IndexRow} {c : IndexColumn} {indexes : List Index}
    (htype : r.indexType ∈ indexTypes)
    (h : ∀ i ∈ indexes, i.Crawled) :
    ∀ i ∈ addToGroup Index.name r.indexName r.start
      (fun i => { i with columns := i.columns ++ [c] }) indexes, i.Crawled := by
  induction indexes with
  | nil =>
      intro i hi
      obtain rfl := List.mem_singleton.mp hi
      exact ⟨r.indexType, htype, r.nonUnique, rfl, rfl⟩
  | cons g gs ih =>
      unfold addToGroup
      split
      · intro i hi
        rcases List.mem_cons.mp hi with rfl | hi
        · exact h g List.mem_cons_self
        · exact h i (List.mem_cons_of_mem _ hi)
      · intro i hi
        rcases List.mem_cons.mp hi with rfl | hi
        · exact h i List.mem_cons_self
        · exact ih (fun j hj => h j (List.mem_cons_of_mem _ hj)) i hi

/-- The catalog's rows make nothing else. -/
theorem crawled_of_indexesOf {table : String} {rows : List IndexRow} {indexes : List Index}
    (htypes : ∀ r ∈ rows, r.indexType ∈ indexTypes)
    (h : indexesOf table rows = .ok indexes) : ∀ i ∈ indexes, i.Crawled := by
  unfold indexesOf at h
  have hstart : ∀ i ∈ ([] : List Index), i.Crawled := by
    intro i hi
    cases hi
  generalize ([] : List Index) = before at h hstart
  induction rows generalizing before with
  | nil =>
      cases h
      exact hstart
  | cons r rows ih =>
      rw [List.foldlM_cons] at h
      obtain ⟨next, hnext, hrest⟩ := bind_eq_ok.mp h
      obtain ⟨c, -, hadd⟩ := bind_eq_ok.mp hnext
      cases hadd
      apply ih (fun r' hr' => htypes r' (List.mem_cons_of_mem _ hr')) _ hrest
      exact addToGroup_crawled (htypes r List.mem_cons_self) hstart

/-! ## The columns -/

/-- The length of the part of a column that is indexed. -/
def sized : Option UInt32 → List Char
  | some length => '(' :: (Nat.toDigits 10 length.toNat ++ [')'])
  | none => []

def turned (descending : Bool) : List Char :=
  if descending then " DESC".toList else []

/-- What an index says of a column. -/
def written (c : String × Bool × Option UInt32) : List Char :=
  (Dialect.mySql.quote c.1).toList ++ (sized c.2.2 ++ turned c.2.1)

def listed (cs : List (String × Bool × Option UInt32)) : List Char :=
  [',', ' '].intercalate (cs.map written)

/-- What stands behind a column in a list that is closed in front of `rest`. -/
def behind (cs : List (String × Bool × Option UInt32)) (rest : List Char) : List Char :=
  match cs with
  | [] => ')' :: rest
  | _ :: _ => ',' :: ' ' :: (listed cs ++ ')' :: rest)

theorem toList_toString (n : UInt32) : (toString n).toList = Nat.toDigits 10 n.toNat :=
  Nat.toList_repr

theorem toList_indexColumns (i : Index) : (indexColumns i).toList = listed i.shape := by
  unfold indexColumns Dialect.indexColumns Text.joined listed Index.shape
  rw [String.toList_intercalate, List.map_map, List.map_map]
  apply congrArg (List.intercalate [',', ' '])
  apply List.map_congr_left
  intro c _
  cases hdescending : c.descending <;> cases hlength : c.prefixLength <;>
    simp [written, sized, turned, hdescending, hlength, toList_toString]

theorem listed_cons_append (c : String × Bool × Option UInt32)
    (cs : List (String × Bool × Option UInt32)) (rest : List Char) :
    listed (c :: cs) ++ ')' :: rest = written c ++ behind cs rest := by
  unfold listed behind
  cases cs with
  | nil => simp
  | cons d cs => simp [listed]

/-- A column ends in front of a comma or a bracket. -/
def Ends (cs : List Char) : Prop :=
  ∃ c rest, cs = c :: rest ∧ (c = ',' ∨ c = ')')

theorem ends_behind (cs : List (String × Bool × Option UInt32)) (rest : List Char) :
    Ends (behind cs rest) := by
  cases cs with
  | nil => exact ⟨')', rest, rfl, Or.inr rfl⟩
  | cons c cs => exact ⟨',', _, rfl, Or.inl rfl⟩

theorem toDigits_append_inj {m n : Nat} {r r' : List Char}
    (h : Nat.toDigits 10 m ++ ')' :: r = Nat.toDigits 10 n ++ ')' :: r') : m = n ∧ r = r' := by
  have hbracket : ∀ k : Nat, ')' ∉ Nat.toDigits 10 k := by
    intro k hk
    exact absurd (Nat.isDigit_of_mem_toDigits (by decide) (by decide) hk) (by decide)
  obtain ⟨hdigits, hr⟩ := append_cons_inj_left (hbracket m) (hbracket n) h
  have hread := congrArg (Nat.ofDigitChars 10 · 0) hdigits
  simp only [Nat.ofDigitChars_ten_toDigits] at hread
  exact ⟨hread, hr⟩

theorem turned_append_inj {a b : Bool} {r r' : List Char} (hr : Ends r) (hr' : Ends r')
    (h : turned a ++ r = turned b ++ r') : a = b ∧ r = r' := by
  obtain ⟨c, rest, rfl, hc⟩ := hr
  obtain ⟨c', rest', rfl, hc'⟩ := hr'
  cases a <;> cases b
  · exact ⟨rfl, h⟩
  · obtain rfl : c = ' ' := (List.cons.inj h).1
    simp at hc
  · obtain rfl : ' ' = c' := (List.cons.inj h).1
    simp at hc'
  · exact ⟨rfl, List.append_cancel_left h⟩

theorem head?_turned_append {descending : Bool} {r : List Char} (hr : Ends r) {c : Char}
    (hc : c ∉ [' ', ',', ')']) : (turned descending ++ r).head? ≠ some c := by
  obtain ⟨c', rest, rfl, hc'⟩ := hr
  intro h
  apply hc
  cases descending with
  | true =>
      obtain rfl : ' ' = c := Option.some.inj h
      exact List.mem_cons_self
  | false =>
      obtain rfl : c' = c := Option.some.inj h
      exact List.mem_cons_of_mem _ (by simpa using hc')

theorem sized_append_inj {a b : Option UInt32} {r r' : List Char} (hr : r.head? ≠ some '(')
    (hr' : r'.head? ≠ some '(') (h : sized a ++ r = sized b ++ r') : a = b ∧ r = r' := by
  cases a with
  | none =>
      cases b with
      | none => exact ⟨rfl, h⟩
      | some n => exact absurd (congrArg List.head? h) hr
  | some m =>
      cases b with
      | none => exact absurd (congrArg List.head? h).symm hr'
      | some n =>
          have hdigits : Nat.toDigits 10 m.toNat ++ [')'] ++ r
              = Nat.toDigits 10 n.toNat ++ [')'] ++ r' := (List.cons.inj h).2
          rw [List.append_assoc, List.append_assoc] at hdigits
          obtain ⟨hlength, hrest⟩ := toDigits_append_inj hdigits
          rw [UInt32.toNat_inj.mp hlength]
          exact ⟨rfl, hrest⟩

theorem head?_sized_append {length : Option UInt32} {r : List Char} {c : Char}
    (hr : r.head? ≠ some c) (hc : c ≠ '(') : (sized length ++ r).head? ≠ some c := by
  cases length with
  | none => exact hr
  | some n => exact fun h => hc (Option.some.inj h).symm

theorem written_append_inj {c d : String × Bool × Option UInt32} {r r' : List Char}
    (hr : Ends r) (hr' : Ends r') (h : written c ++ r = written d ++ r') : c = d ∧ r = r' := by
  have hquote : ∀ (e : String × Bool × Option UInt32) (cs : List Char), Ends cs →
      (sized e.2.2 ++ (turned e.2.1 ++ cs)).head? ≠ some Dialect.mySql.closingQuote := by
    intro e cs hcs
    exact head?_sized_append (head?_turned_append hcs (by decide)) (by decide)
  unfold written at h
  simp only [List.append_assoc] at h
  obtain ⟨hname, hrest⟩ := Dialect.quote_append_inj (hquote c r hr) (hquote d r' hr') h
  obtain ⟨hlength, hrest⟩ := sized_append_inj (head?_turned_append hr (by decide))
    (head?_turned_append hr' (by decide)) hrest
  obtain ⟨hdescending, hr⟩ := turned_append_inj hr hr' hrest
  exact ⟨Prod.ext hname (Prod.ext hdescending hlength), hr⟩

/-- A column begins with a quote, and so does not end a list. -/
theorem bracket_ne_written (c : String × Bool × Option UInt32) (r r' : List Char) :
    ')' :: r ≠ written c ++ r' := by
  intro h
  rw [written, Dialect.quote, Text.toList_enclose] at h
  have hbracket : ')' = '`' := (List.cons.inj h).1
  exact absurd hbracket (by decide)

/-- A list of columns that is closed by a bracket can be read back, whatever follows it. -/
theorem listed_append_inj {cs ds : List (String × Bool × Option UInt32)} {r r' : List Char}
    (h : listed cs ++ ')' :: r = listed ds ++ ')' :: r') : cs = ds ∧ r = r' := by
  induction cs generalizing ds with
  | nil =>
      cases ds with
      | nil => exact ⟨rfl, (List.cons.inj h).2⟩
      | cons d ds =>
          rw [listed_cons_append] at h
          exact absurd h (bracket_ne_written d r _)
  | cons c cs ih =>
      cases ds with
      | nil =>
          rw [listed_cons_append] at h
          exact absurd h.symm (bracket_ne_written c r' _)
      | cons d ds =>
          rw [listed_cons_append, listed_cons_append] at h
          obtain ⟨rfl, hbehind⟩ := written_append_inj (ends_behind cs r) (ends_behind ds r') h
          -- Both lists end here, or a comma follows in both.
          cases cs with
          | nil =>
              cases ds with
              | nil => exact ⟨rfl, (List.cons.inj hbehind).2⟩
              | cons d' ds => exact absurd (List.cons.inj hbehind).1 (by decide)
          | cons c' cs =>
              cases ds with
              | nil => exact absurd (List.cons.inj hbehind).1 (by decide)
              | cons d' ds =>
                  obtain ⟨hcolumns, hr⟩ := ih (List.cons.inj (List.cons.inj hbehind).2).2
                  exact ⟨congrArg _ hcolumns, hr⟩

/-! ## The statements -/

/-- The first words of the statement that creates an index. -/
def start : IndexKind → String
  | .primaryKey => "ALTER TABLE "
  | .unique | .uniqueConstraint => "CREATE UNIQUE INDEX "
  | .fulltext => "CREATE FULLTEXT INDEX "
  | .spatial => "CREATE SPATIAL INDEX "
  | .index => "CREATE INDEX "

theorem start_exclusive {k k' : IndexKind} (hk : k ≠ .uniqueConstraint)
    (hk' : k' ≠ .uniqueConstraint) (h : k ≠ k') : Exclusive (start k) (start k') := by
  revert hk hk' h
  cases k <;> cases k' <;> decide

/-- What stands in front of the columns of an index. -/
def opening (o : Options) (t : Table) (name : String) (kind : IndexKind) : String :=
  match kind with
  | .primaryKey => s!"{start kind}{Dialect.mySql.tableName o t} ADD PRIMARY KEY "
  | _ => s!"{start kind}{Dialect.mySql.quote name} ON {Dialect.mySql.tableName o t} "

/-- What stands behind them, which is the type where it is written. -/
def hashClause (i : Index) : String :=
  match i.kind with
  | .index =>
      match i.extension with
      | .mySql indexType => if Text.sameFolded indexType "HASH" then " USING HASH" else ""
      | _ => ""
  | _ => ""

variable {o : Options} {t : Table} {a b : Index}

theorem toList_createIndex (o : Options) (t : Table) (i : Index) :
    (createIndex o t i).toList
      = (opening o t i.name i.kind).toList
        ++ '(' :: (listed i.shape ++ ')' :: (hashClause i).toList) := by
  rw [← toList_indexColumns]
  unfold createIndex opening hashClause
  cases hkind : i.kind
  case index => cases hextension : i.extension <;> simp [start]
  all_goals simp [Dialect.alterTable, start]

theorem createIndex_begins (o : Options) (t : Table) (i : Index) :
    Begins (start i.kind) (createIndex o t i) := by
  have hopening : Begins (start i.kind) (opening o t i.name i.kind) := by
    unfold opening
    cases i.kind <;> simp [Begins]
  unfold Begins
  rw [toList_createIndex]
  exact hopening.trans (List.prefix_append _ _)

/-- Two statements for one name are the same if all that they say of the indexes is. -/
theorem createIndex_eq_iff (ha : a.kind ≠ .uniqueConstraint) (hb : b.kind ≠ .uniqueConstraint)
    (hname : a.name = b.name) :
    createIndex o t a = createIndex o t b
      ↔ a.kind = b.kind ∧ a.shape = b.shape ∧ hashClause a = hashClause b := by
  constructor
  · intro h
    have hkind : a.kind = b.kind := by
      by_contra hne
      exact (createIndex_begins o t a).ne (start_exclusive ha hb hne) (createIndex_begins o t b) h
    have hchars := congrArg String.toList h
    rw [toList_createIndex, toList_createIndex, hname, hkind] at hchars
    have hcolumns := (List.cons.inj (List.append_cancel_left hchars)).2
    obtain ⟨hshape, hclause⟩ := listed_append_inj hcolumns
    exact ⟨hkind, hshape, String.toList_inj.mp hclause⟩
  · rintro ⟨hkind, hshape, hclause⟩
    apply String.toList_inj.mp
    rw [toList_createIndex, toList_createIndex, hname, hkind, hshape, hclause]

end MySql

/-! ## Indexes that are told apart -/

/-- Primary keys or unique indexes that differ in their type and in nothing else. -/
structure Index.DiffersInType (a b : Index) : Prop where
  keyed : a.kind = .primaryKey ∨ a.kind = .unique
  kind : a.kind = b.kind
  shape : a.shape = b.shape
  extension : a.extension ≠ b.extension

section Changes

variable {a b : Index}

theorem indexesEqual_iff :
    indexesEqual a b = true ↔ a.kind = b.kind ∧ a.extension = b.extension ∧ a.shape = b.shape := by
  unfold indexesEqual
  simp only [Bool.and_eq_true, beq_iff_eq, and_assoc]

/-- Where the type is written, or follows from the kind, the statement decides it. -/
theorem Index.Crawled.extension_eq (ha : a.Crawled) (hb : b.Crawled) (hkind : a.kind = b.kind)
    (hclause : MySql.hashClause a = MySql.hashClause b) :
    (a.kind = .primaryKey ∨ a.kind = .unique) ∨ a.extension = b.extension := by
  have hallows := ha.allows
  have hallows' := hb.allows
  unfold MySql.hashClause at hclause
  rw [← hkind] at hallows' hclause
  cases hk : a.kind with
  | primaryKey => exact Or.inl (Or.inl rfl)
  | unique => exact Or.inl (Or.inr rfl)
  | uniqueConstraint => exact absurd hk ha.kind_ne
  | fulltext =>
      rw [hk] at hallows hallows'
      exact Or.inr (hallows.trans hallows'.symm)
  | spatial =>
      rw [hk] at hallows hallows'
      exact Or.inr (hallows.trans hallows'.symm)
  | index =>
      rw [hk] at hallows hallows' hclause
      right
      rcases hallows with h | h
      · rcases hallows' with h' | h'
        · exact h.trans h'.symm
        · rw [h, h'] at hclause
          exact absurd hclause (by decide)
      · rcases hallows' with h' | h'
        · rw [h, h'] at hclause
          exact absurd hclause (by decide)
        · exact h.trans h'.symm

theorem MySql.hashClause_of_keyed {i : Index} (h : i.kind = .primaryKey ∨ i.kind = .unique) :
    hashClause i = "" := by
  unfold hashClause
  rcases h with h | h
  · rw [h]
  · rw [h]

/-- Two indexes of one name that are told apart are created by different statements, unless both
are keys and nothing but their type differs. -/
theorem MySql.createIndex_changes_iff (o : Options) (t : Table) (ha : a.Crawled)
    (hb : b.Crawled) (hname : a.name = b.name) :
    (indexesEqual a b = false → createIndex o t a ≠ createIndex o t b)
      ↔ ¬ a.DiffersInType b := by
  have hstatements := createIndex_eq_iff (o := o) (t := t) ha.kind_ne hb.kind_ne hname
  constructor
  · intro hchanges hdiffers
    have htold : indexesEqual a b = false := by
      rw [← Bool.not_eq_true, indexesEqual_iff]
      rintro ⟨-, hextension, -⟩
      exact hdiffers.extension hextension
    have hkeyed : b.kind = .primaryKey ∨ b.kind = .unique := hdiffers.kind ▸ hdiffers.keyed
    apply hchanges htold
    apply hstatements.mpr
    refine ⟨hdiffers.kind, hdiffers.shape, ?_⟩
    rw [hashClause_of_keyed hdiffers.keyed, hashClause_of_keyed hkeyed]
  · intro hdiffers htold hsame
    obtain ⟨hkind, hshape, hclause⟩ := hstatements.mp hsame
    have hextension : a.extension ≠ b.extension := by
      intro hextension
      have hequal := indexesEqual_iff.mpr ⟨hkind, hextension, hshape⟩
      rw [htold] at hequal
      cases hequal
    rcases ha.extension_eq hb hkind hclause with hkeyed | hextension'
    · exact hdiffers ⟨hkeyed, hkind, hshape, hextension⟩
    · exact hextension hextension'

/-- An index on the code of a session, as the catalog has it. -/
def codeIndex (nonUnique : Int64) (indexType : String) : Index :=
  { name := "ux_code"
    kind := MySql.indexKind "ux_code" nonUnique indexType
    columns := [{ name := "code", ordinal := 1 }]
    extension := .mySql indexType }

theorem codeIndex_crawled (nonUnique : Int64) {indexType : String}
    (htype : indexType ∈ MySql.indexTypes) :
    (codeIndex nonUnique indexType).Crawled :=
  ⟨indexType, htype, nonUnique, rfl, rfl⟩

/-- An index that is not unique is created anew as what it has become. -/
theorem MySql.createIndex_changes_iff_code :
    indexesEqual (codeIndex 1 "BTREE") (codeIndex 1 "HASH") = false
    ∧ createIndex {} { schema := "shop", name := "sessions" } (codeIndex 1 "BTREE")
      ≠ createIndex {} { schema := "shop", name := "sessions" } (codeIndex 1 "HASH") := by
  have htree : (codeIndex 1 "BTREE").Crawled := codeIndex_crawled 1 (by decide)
  have hhash : (codeIndex 1 "HASH").Crawled := codeIndex_crawled 1 (by decide)
  have htold : indexesEqual (codeIndex 1 "BTREE") (codeIndex 1 "HASH") = false := by decide
  have hplain : ¬ (codeIndex 1 "BTREE").DiffersInType (codeIndex 1 "HASH") := by
    intro hdiffers
    exact absurd hdiffers.keyed (by decide)
  exact ⟨htold, (createIndex_changes_iff _ _ htree hhash rfl).mpr hplain htold⟩

/-- A unique one is created anew as it was. -/
theorem MySql.createIndex_keeps_code :
    (codeIndex 0 "BTREE").Crawled ∧ (codeIndex 0 "HASH").Crawled
    ∧ indexesEqual (codeIndex 0 "BTREE") (codeIndex 0 "HASH") = false
    ∧ createIndex {} { schema := "shop", name := "sessions" } (codeIndex 0 "BTREE")
      = createIndex {} { schema := "shop", name := "sessions" } (codeIndex 0 "HASH") :=
  ⟨codeIndex_crawled 0 (by decide), codeIndex_crawled 0 (by decide), by decide, rfl⟩

end Changes

end Reconcile
