import Reconcile.Proofs.Tokens

/-!
# Written data are read back

Reading a JSON text that was written for a datum, on one line or on several, gives the
datum (`parse?_render`, `parse?_pretty`), if it is one that a text can hold: made of nulls,
truth values, integers, texts, lists and records, in which no name occurs twice, nested no
deeper than a text may be (`Datum.Plain`).

The way there leads over the tokens of the datum (`tokensOf`).  Both texts are cut into
them (`Cuts`), since they differ in white space alone; the tokens nest as deep as the datum
(`Nests`), and put together they give it (`Builds`).
-/

namespace Reconcile

/-- A datum of at most `depth` lists and records inside each other that any JSON text can
hold. -/
inductive Datum.Plain : Nat → Datum → Prop where
  | null (depth : Nat) : Plain depth .null
  | bool (depth : Nat) (b : Bool) : Plain depth (.bool b)
  | int (depth : Nat) (i : Int) : Plain depth (.int i)
  | text (depth : Nat) (s : String) : Plain depth (.text s)
  | list {depth : Nat} (items : List Datum) (h : ∀ d ∈ items, Plain depth d) :
      Plain (depth + 1) (.list items)
  | record {depth : Nat} (members : List (String × Datum))
      (hnames : (members.map Prod.fst).Nodup) (h : ∀ m ∈ members, Plain depth m.2) :
      Plain (depth + 1) (.record members)

namespace Data.Json

open Token

/-! ## The tokens of a datum -/

mutual

def tokensOf : Datum → List Token
  | .list items => .listOpen :: (itemTokens items ++ [.listClose])
  | .record members => .recordOpen :: (memberTokens members ++ [.recordClose])
  | d => [.scalar d]

def itemTokens : List Datum → List Token
  | [] => []
  | [d] => tokensOf d
  | d :: e :: rest => tokensOf d ++ .comma :: itemTokens (e :: rest)

def memberTokens : List (String × Datum) → List Token
  | [] => []
  | [(n, d)] => .scalar (.text n) :: .colon :: tokensOf d
  | (n, d) :: e :: rest =>
      .scalar (.text n) :: .colon :: (tokensOf d ++ .comma :: memberTokens (e :: rest))

end

theorem itemTokens_eq (items : List Datum) :
    itemTokens items = [.comma].intercalate (items.map tokensOf) := by
  induction items with
  | nil => rfl
  | cons d rest ih => cases rest <;> simp_all [itemTokens]

def tokensOfMember (m : String × Datum) : List Token :=
  .scalar (.text m.1) :: .colon :: tokensOf m.2

theorem memberTokens_eq (members : List (String × Datum)) :
    memberTokens members = [.comma].intercalate (members.map tokensOfMember) := by
  induction members with
  | nil => rfl
  | cons m rest ih => cases rest <;> simp_all [memberTokens, tokensOfMember]

/-! ## The text is cut into the tokens -/

section Cuts

variable {α : Type} {write : α → String} {tokens : α → List Token} {x : α}

/-- The text of a thing, before something that closes, comes to its tokens. -/
def Cuts (write : α → String) (tokens : α → List Token) (x : α) : Prop :=
  ∀ cs rest, Closes cs → Scans cs rest → Scans ((write x).toList ++ cs) (tokens x ++ rest)

theorem scans_joined {xs : List α} (h : ∀ x ∈ xs, Cuts write tokens x) {cs : List Char}
    {rest : List Token} (hcloses : Closes cs) (hcs : Scans cs rest) :
    Scans ((",".intercalate (xs.map write)).toList ++ cs)
      ([.comma].intercalate (xs.map tokens) ++ rest) := by
  induction xs with
  | nil => exact hcs
  | cons x xs ih =>
      have hx := h x List.mem_cons_self
      cases xs with
      | nil => simpa using hx cs rest hcloses hcs
      | cons y ys =>
          have hrest := ih fun z hz => h z (List.mem_cons_of_mem _ hz)
          have hcut := hx _ _ (closes_comma _) (hrest.sign (c := ',') rfl)
          simpa [String.append_assoc] using hcut

/-- A member is cut into its name, the colon and its value. -/
theorem cuts_member {write : Datum → String} {d : Datum} (colon name : String)
    (hcolon : ∀ cs rest, Scans cs rest → Scans (colon.toList ++ cs) (.colon :: rest))
    (h : Cuts write tokensOf d) :
    Cuts (fun m => text m.1 ++ colon ++ write m.2) tokensOfMember (name, d) := by
  intro cs rest hcloses hcs
  have hvalue := hcolon _ _ (h cs rest hcloses hcs)
  simpa [String.append_assoc, tokensOfMember] using Scans.text name hvalue

theorem scans_indent (depth : Nat) {cs : List Char} {rest : List Token} (h : Scans cs rest) :
    Scans ((indent depth).toList ++ cs) rest := by
  refine h.spaces fun c hc => ?_
  simp only [indent, String.toList_append, String.toList_ofList, List.mem_append,
    List.mem_replicate] at hc
  rcases hc with hc | ⟨-, rfl⟩
  · rw [List.mem_singleton.mp hc]
    rfl
  · rfl

/-- White space in front does not matter. -/
theorem cuts_indented (depth : Nat) (h : Cuts write tokens x) :
    Cuts (fun x => indent depth ++ write x) tokens x := by
  intro cs rest hcloses hcs
  simpa using scans_indent depth (h cs rest hcloses hcs)

end Cuts

/-! ### On one line -/

theorem renderItems_eq (items : List Datum) :
    renderItems items = ",".intercalate (items.map render) := by
  induction items with
  | nil => rfl
  | cons d rest ih => cases rest <;> simp_all [renderItems]

theorem renderMembers_eq (members : List (String × Datum)) :
    renderMembers members
      = ",".intercalate (members.map fun m => text m.1 ++ ":" ++ render m.2) := by
  induction members with
  | nil => rfl
  | cons m rest ih => cases rest <;> simp_all [renderMembers]

theorem cuts_render {depth : Nat} {d : Datum} (h : d.Plain depth) :
    Cuts render tokensOf d := by
  induction h with
  | null => exact fun cs rest _ h => h.null
  | bool _ b => exact fun cs rest _ h => h.bool b
  | int _ i => exact fun cs rest hcloses h => h.int i hcloses
  | text _ s => exact fun cs rest _ h => Scans.text s h
  | list items _ ih =>
      intro cs rest _ h
      have hitems := scans_joined ih (closes_list cs) (h.sign (c := ']') rfl)
      rw [← renderItems_eq, ← itemTokens_eq] at hitems
      simpa [render, tokensOf] using hitems.sign (c := '[') rfl
  | record members _ _ ih =>
      intro cs rest _ h
      have hmember := fun m hm => cuts_member ":" m.1
        (fun _ _ h => h.sign rfl) (ih m hm)
      have hmembers := scans_joined hmember (closes_record cs) (h.sign (c := '\x7d') rfl)
      rw [← renderMembers_eq, ← memberTokens_eq] at hmembers
      simpa [render, tokensOf] using hmembers.sign (c := '\x7b') rfl

/-! ### Over several lines -/

theorem prettyItems_eq (depth : Nat) (items : List Datum) :
    prettyItems depth items
      = ",".intercalate (items.map fun d => indent depth ++ prettyAt depth d) := by
  induction items with
  | nil => rfl
  | cons d rest ih => cases rest <;> simp_all [prettyItems]

theorem prettyMembers_eq (depth : Nat) (members : List (String × Datum)) :
    prettyMembers depth members = ",".intercalate
      (members.map fun m => indent depth ++ (text m.1 ++ ": " ++ prettyAt depth m.2)) := by
  induction members with
  | nil => rfl
  | cons m rest ih => cases rest <;> simp_all [prettyMembers, String.append_assoc]

theorem closes_indent (depth : Nat) (cs : List Char) :
    Closes ((indent depth).toList ++ cs) := by
  simpa [indent] using closes_line _

theorem cuts_prettyAt {depth : Nat} {d : Datum} (h : d.Plain depth) (level : Nat) :
    Cuts (prettyAt level) tokensOf d := by
  induction h generalizing level with
  | null => exact fun cs rest _ h => h.null
  | bool _ b => exact fun cs rest _ h => h.bool b
  | int _ i => exact fun cs rest hcloses h => h.int i hcloses
  | text _ s => exact fun cs rest _ h => Scans.text s h
  | list items _ ih =>
      intro cs rest _ h
      have hclose := h.sign (c := ']') rfl
      cases items with
      | nil => simpa [prettyAt, tokensOf, itemTokens] using hclose.sign (c := '[') rfl
      | cons d more =>
          have hitems := scans_joined (fun d hd => cuts_indented (level + 1) (ih d hd (level + 1)))
            (closes_indent level _) (scans_indent level hclose)
          rw [← prettyItems_eq, ← itemTokens_eq] at hitems
          simpa [prettyAt, tokensOf] using hitems.sign (c := '[') rfl
  | record members _ _ ih =>
      intro cs rest _ h
      have hclose := h.sign (c := '\x7d') rfl
      cases members with
      | nil => simpa [prettyAt, tokensOf, memberTokens] using hclose.sign (c := '\x7b') rfl
      | cons m more =>
          have hmember := fun m hm => cuts_member ": " m.1
            (fun _ _ h => (h.space rfl).sign rfl) (ih m hm (level + 1))
          have hmembers := scans_joined (fun m hm => cuts_indented (level + 1) (hmember m hm))
            (closes_indent level _) (scans_indent level hclose)
          rw [← prettyMembers_eq, ← memberTokens_eq] at hmembers
          simpa [prettyAt, tokensOf] using hmembers.sign (c := '\x7b') rfl

/-! ## The tokens nest as deep as the datum -/

/-- The tokens leave as many brackets open as there were, if `depth` more may be. -/
def Nests (depth : Nat) (tokens : List Token) : Prop :=
  ∀ left rest, depth ≤ left → nestsWithin left (tokens ++ rest) = nestsWithin left rest

theorem nests_joined {α : Type} {depth : Nat} {tokens : α → List Token} {xs : List α}
    (h : ∀ x ∈ xs, Nests depth (tokens x)) :
    Nests depth ([.comma].intercalate (xs.map tokens)) := by
  intro left rest hleft
  induction xs with
  | nil => rfl
  | cons x xs ih =>
      have hx := h x List.mem_cons_self
      cases xs with
      | nil => simpa using hx left rest hleft
      | cons y ys =>
          have hrest := ih fun z hz => h z (List.mem_cons_of_mem _ hz)
          have hcut := hx left
            (.comma :: ([.comma].intercalate ((y :: ys).map tokens) ++ rest)) hleft
          simpa [nestsWithin] using hcut.trans hrest

theorem nests_of_plain {depth : Nat} {d : Datum} (h : d.Plain depth) :
    Nests depth (tokensOf d) := by
  induction h with
  | null | bool | int | text => exact fun _ _ _ => rfl
  | list _ _ ih =>
      intro left rest hleft
      cases left with
      | zero => cases hleft
      | succ left =>
          have hitems := nests_joined ih left (.listClose :: rest)
            (Nat.le_of_succ_le_succ hleft)
          rw [← itemTokens_eq] at hitems
          simpa [tokensOf, nestsWithin] using hitems
  | record members _ _ ih =>
      intro left rest hleft
      cases left with
      | zero => cases hleft
      | succ left =>
          have hmember : ∀ m ∈ members, Nests _ (tokensOfMember m) := ih
          have hmembers := nests_joined hmember left (.recordClose :: rest)
            (Nat.le_of_succ_le_succ hleft)
          rw [← memberTokens_eq] at hmembers
          simpa [tokensOf, nestsWithin] using hmembers

/-! ## The tokens are put together -/

/-- Enough fuel puts the tokens of a datum together to the datum. -/
def Builds (d : Datum) : Prop :=
  ∀ fuel tokens, (tokensOf d).length ≤ fuel →
    value? fuel (tokensOf d ++ tokens) = some (d, tokens)

theorem items?_items {items : List Datum} (h : ∀ d ∈ items, Builds d) (hne : items ≠ [])
    (fuel : Nat) (tokens : List Token) (hfuel : (itemTokens items).length < fuel) :
    items? fuel (itemTokens items ++ .listClose :: tokens) = some (items, tokens) := by
  induction items generalizing fuel with
  | nil => exact absurd rfl hne
  | cons d rest ih =>
      have hd := h d List.mem_cons_self
      cases fuel with
      | zero => cases hfuel
      | succ fuel =>
          cases rest with
          | nil =>
              have hvalue := hd fuel (.listClose :: tokens) (Nat.le_of_lt_succ hfuel)
              simp only [itemTokens, items?, hvalue]
          | cons e rest =>
              rw [itemTokens, List.length_append, List.length_cons] at hfuel
              have hvalue := hd fuel (.comma :: (itemTokens (e :: rest) ++ .listClose :: tokens))
                (by omega)
              have hrest := ih (fun x hx => h x (List.mem_cons_of_mem _ hx))
                (List.cons_ne_nil e rest) fuel (by omega)
              simp only [itemTokens, List.append_assoc, List.cons_append, items?, hvalue, hrest,
                Option.map_some]

theorem members?_members {members : List (String × Datum)} (h : ∀ m ∈ members, Builds m.2)
    (hne : members ≠ []) (fuel : Nat) (tokens : List Token)
    (hfuel : (memberTokens members).length < fuel) :
    members? fuel (memberTokens members ++ .recordClose :: tokens)
      = some (members, tokens) := by
  induction members generalizing fuel with
  | nil => exact absurd rfl hne
  | cons m rest ih =>
      obtain ⟨name, d⟩ := m
      have hd : Builds d := h (name, d) List.mem_cons_self
      cases fuel with
      | zero => cases hfuel
      | succ fuel =>
          cases rest with
          | nil =>
              simp only [memberTokens, List.length_cons] at hfuel
              have hvalue := hd fuel (.recordClose :: tokens) (by omega)
              simp only [memberTokens, List.cons_append, members?, hvalue]
          | cons e rest =>
              simp only [memberTokens, List.length_append, List.length_cons] at hfuel
              have hvalue := hd fuel
                (.comma :: (memberTokens (e :: rest) ++ .recordClose :: tokens)) (by omega)
              have hrest := ih (fun x hx => h x (List.mem_cons_of_mem _ hx))
                (List.cons_ne_nil e rest) fuel (by omega)
              simp only [memberTokens, List.append_assoc, List.cons_append, members?, hvalue,
                hrest, Option.map_some]

/-- No item begins with the bracket that closes its list. -/
theorem itemTokens_ne_close (d : Datum) (rest : List Datum) (tokens tokens' : List Token) :
    itemTokens (d :: rest) ++ tokens ≠ .listClose :: tokens' := by
  have hd : ∀ more, tokensOf d ++ more ≠ .listClose :: tokens' := by
    intro more
    cases d <;> simp [tokensOf]
  cases rest with
  | nil => exact hd tokens
  | cons e rest =>
      rw [itemTokens, List.append_assoc]
      exact hd _

theorem memberTokens_ne_close (m : String × Datum) (rest : List (String × Datum))
    (tokens tokens' : List Token) :
    memberTokens (m :: rest) ++ tokens ≠ .recordClose :: tokens' := by
  cases rest <;> simp [memberTokens]

theorem put_of_new {name : String} {members : List (String × Datum)}
    (h : name ∉ members.map Prod.fst) (d : Datum) :
    Datum.put name d members = members ++ [(name, d)] := by
  induction members with
  | nil => rfl
  | cons m rest ih =>
      obtain ⟨n, v⟩ := m
      rw [List.map_cons, List.mem_cons, not_or] at h
      rw [Datum.put, if_neg (Ne.symm h.1), ih h.2, List.cons_append]

theorem foldl_put_of_nodup {done rest : List (String × Datum)}
    (h : ((done ++ rest).map Prod.fst).Nodup) :
    rest.foldl (fun ms m => Datum.put m.1 m.2 ms) done = done ++ rest := by
  induction rest generalizing done with
  | nil => exact (List.append_nil done).symm
  | cons m rest ih =>
      have hnew : m.1 ∉ done.map Prod.fst := by
        rw [List.map_append, List.nodup_append] at h
        intro hmem
        exact h.2.2 _ hmem _ List.mem_cons_self rfl
      have hnext := @ih (done ++ [m]) (by simpa using h)
      rwa [List.append_assoc, ← put_of_new hnew m.2] at hnext

/-- Members of distinct names stay as they were written. -/
theorem ofMembers_of_nodup {members : List (String × Datum)}
    (h : (members.map Prod.fst).Nodup) : Datum.ofMembers members = .record members :=
  congrArg Datum.record (@foldl_put_of_nodup [] members h)

theorem builds_of_plain {depth : Nat} {d : Datum} (h : d.Plain depth) : Builds d := by
  induction h with
  | null | bool | int | text =>
      intro fuel tokens hfuel
      cases fuel with
      | zero => cases hfuel
      | succ fuel => rfl
  | list items _ ih =>
      intro fuel tokens hfuel
      cases fuel with
      | zero => cases hfuel
      | succ fuel =>
          cases items with
          | nil => rfl
          | cons d rest =>
              simp only [tokensOf, List.length_cons, List.length_append] at hfuel
              have hitems := items?_items ih (List.cons_ne_nil d rest) fuel tokens (by omega)
              simp only [tokensOf, List.cons_append, List.append_assoc, List.nil_append]
              rw [value?, hitems]
              · rfl
              · exact fun tokens' => itemTokens_ne_close d rest _ tokens'
  | record members hnames _ ih =>
      intro fuel tokens hfuel
      cases fuel with
      | zero => cases hfuel
      | succ fuel =>
          cases members with
          | nil => rfl
          | cons m rest =>
              simp only [tokensOf, List.length_cons, List.length_append] at hfuel
              have hmembers := members?_members ih (List.cons_ne_nil m rest) fuel tokens
                (by omega)
              simp only [tokensOf, List.cons_append, List.append_assoc, List.nil_append]
              rw [value?, hmembers]
              · exact congrArg (fun d => some (d, tokens)) (ofMembers_of_nodup hnames)
              · exact fun tokens' => memberTokens_ne_close m rest _ tokens'

/-- What is cut into the tokens of a datum is read as the datum. -/
theorem parse?_of_cuts {write : Datum → String} {d : Datum} (h : d.Plain maxDepth)
    (hcuts : Cuts write tokensOf d) : parse? (write d) = some d := by
  have hscan := hcuts [] [] trivial scans_nil
  have hnests := nests_of_plain h maxDepth [] le_rfl
  have hbuilds := builds_of_plain h ((tokensOf d).length + 1) [] (Nat.le_succ _)
  rw [List.append_nil, List.append_nil] at hscan
  rw [List.append_nil] at hnests hbuilds
  simp only [parse?, hscan.scan, hnests, hbuilds]
  rfl

theorem parse?_render {d : Datum} (h : d.Plain maxDepth) : parse? (render d) = some d :=
  parse?_of_cuts h (cuts_render h)

theorem parse?_pretty {d : Datum} (h : d.Plain maxDepth) : parse? (pretty d) = some d :=
  parse?_of_cuts h (cuts_prettyAt h 0)

end Data.Json

end Reconcile
