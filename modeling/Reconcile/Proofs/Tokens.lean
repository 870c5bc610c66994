import Reconcile.Data.Json
import Mathlib.Data.Nat.Basic

/-!
# Written tokens are read back

What is written for a text, an integer, a truth value or a sign is one token when it is
read, and reading goes on with what follows (`Token.Scans`).  A text is closed by its
quote whatever stands in it, since the quotes in it are escaped (`readText_escaped`); an
integer ends where no digit follows, so what follows has to be a sign that closes or
separates, or a new line (`Token.Closes`).
-/

namespace Reconcile.Data

namespace Token

/-- The characters come to these tokens, whatever the fuel, if it is enough for them. -/
def Scans (cs : List Char) (tokens : List Token) : Prop :=
  ∀ fuel, cs.length ≤ fuel → scanWithin fuel cs = some tokens

variable {cs : List Char} {tokens : List Token}

theorem Scans.scan (h : Scans cs tokens) : Token.scan cs = some tokens :=
  h cs.length le_rfl

theorem scans_nil : Scans [] [] := by
  intro fuel _
  cases fuel <;> rfl

/-- A step of the scan takes at least one character. -/
theorem Scans.step {c : Char} {front : List Char} {token : Token} (h : Scans cs tokens)
    (hstep : ∀ fuel, scanWithin (fuel + 1) (c :: front ++ cs)
      = (scanWithin fuel cs).map (token :: ·)) :
    Scans (c :: front ++ cs) (token :: tokens) := by
  intro fuel hfuel
  cases fuel with
  | zero => cases hfuel
  | succ fuel =>
      have henough : cs.length ≤ fuel := by
        rw [List.cons_append, List.length_cons, List.length_append] at hfuel
        omega
      rw [hstep, h fuel henough]
      rfl

/-! ## White space -/

theorem Scans.space {c : Char} (h : Scans cs tokens) (hc : isSpace c = true) :
    Scans (c :: cs) tokens := by
  intro fuel hfuel
  cases fuel with
  | zero => cases hfuel
  | succ fuel =>
      simp only [isSpace, Bool.or_eq_true, beq_iff_eq] at hc
      rcases hc with ((rfl | rfl) | rfl) | rfl <;> exact h fuel (Nat.le_of_succ_le_succ hfuel)

theorem Scans.spaces {front : List Char} (h : Scans cs tokens)
    (hfront : ∀ c ∈ front, isSpace c = true) : Scans (front ++ cs) tokens := by
  induction front with
  | nil => exact h
  | cons c front ih =>
      have hrest := ih fun x hx => hfront x (List.mem_cons_of_mem _ hx)
      exact hrest.space (hfront c List.mem_cons_self)

/-! ## Signs -/

def sign? : Char → Option Token
  | '[' => some .listOpen
  | ']' => some .listClose
  | '\x7b' => some .recordOpen
  | '\x7d' => some .recordClose
  | ',' => some .comma
  | ':' => some .colon
  | _ => none

theorem Scans.sign {c : Char} {token : Token} (h : Scans cs tokens) (hc : sign? c = some token) :
    Scans (c :: cs) (token :: tokens) := by
  have hstep := @Scans.step cs tokens c [] token h
  refine hstep fun fuel => ?_
  unfold sign? at hc
  split at hc <;> cases hc <;> rfl

/-! ## Words -/

theorem Scans.null (h : Scans cs tokens) :
    Scans ("null".toList ++ cs) (.scalar .null :: tokens) :=
  h.step fun _ => rfl

theorem Scans.bool (b : Bool) (h : Scans cs tokens) :
    Scans ((if b then "true" else "false").toList ++ cs) (.scalar (.bool b) :: tokens) := by
  cases b with
  | true => exact h.step fun _ => rfl
  | false => exact h.step fun _ => rfl

/-! ## Texts -/

/-- The escape of a control character gives its code. -/
theorem unit?_control : ∀ n < 32,
    unit? '0' '0' (Json.hexDigit (n / 16)) (Json.hexDigit (n % 16)) = some n := by
  decide

/-- The escapes of one character are read as that character. -/
theorem readText_escaped_append (acc : List Char) (c : Char) (cs : List Char) :
    readText acc (Json.escaped c ++ cs) = readText (c :: acc) cs := by
  unfold Json.escaped
  split
  case h_1 | h_2 | h_3 | h_4 | h_5 | h_6 | h_7 => rfl
  case h_8 hquote hbackslash _ _ _ _ _ =>
      split
      · next hcontrol =>
          have hread : unit? '0' '0' (Json.hexDigit (c.toNat / 16))
              (Json.hexDigit (c.toNat % 16)) = some c.toNat := unit?_control _ hcontrol
          have hlow : ¬ (0xD800 ≤ c.toNat ∧ c.toNat < 0xDC00) := by omega
          have hlow' : ¬ (0xDC00 ≤ c.toNat ∧ c.toNat < 0xE000) := by omega
          simp only [List.cons_append, List.nil_append]
          rw [readText]
          simp [hread, hlow, hlow', Char.ofNat_toNat]
      · next hprinted =>
          rw [List.singleton_append, readText]
          · rw [if_neg hprinted]
          · exact hquote
          · exact fun _ _ _ _ _ hc _ => hbackslash hc
          · exact fun _ _ hc _ => hbackslash hc

/-- A text is read to its closing quote. -/
theorem readText_escaped (acc s cs : List Char) :
    readText acc (s.flatMap Json.escaped ++ '\x22' :: cs) = some (acc.reverse ++ s, cs) := by
  induction s generalizing acc with
  | nil => simp [readText]
  | cons c s ih =>
      rw [List.flatMap_cons, List.append_assoc, readText_escaped_append, ih]
      simp

theorem Scans.text (s : String) (h : Scans cs tokens) :
    Scans ((Json.text s).toList ++ cs) (.scalar (.text s) :: tokens) := by
  have hchars : (Json.text s).toList ++ cs
      = '\x22' :: (s.toList.flatMap Json.escaped ++ ['\x22']) ++ cs := by
    rw [Json.text, String.toList_ofList, List.cons_append]
  rw [hchars]
  refine h.step fun fuel => ?_
  have hread : readText [] (s.toList.flatMap Json.escaped ++ ['\x22'] ++ cs)
      = some (s.toList, cs) := by
    rw [List.append_assoc]
    exact readText_escaped [] s.toList cs
  rw [List.cons_append, scanWithin]
  simp only [hread, String.ofList_toList]

/-! ## Integers -/

theorem digitValue?_digitChar : ∀ n < 10, digitValue? (Nat.digitChar n) = some n := by
  decide

/-- The digits of a number are read as the number. -/
theorem readDigits_toDigits (n : Nat) (cs : List Char) :
    readDigits 0 0 (Nat.toDigits 10 n ++ cs)
      = readDigits n (Nat.toDigits 10 n).length cs := by
  induction n using Nat.strongRecOn generalizing cs with
  | ind n ih =>
      by_cases hn : n < 10
      · rw [Nat.toDigits_of_lt_base hn, List.singleton_append, readDigits,
          digitValue?_digitChar n hn]
        simp
      · have hlast : n % 10 < 10 := Nat.mod_lt _ (by decide)
        rw [Nat.toDigits_of_base_le (by decide) (by omega), List.append_assoc,
          ih (n / 10) (by omega), List.singleton_append, readDigits,
          digitValue?_digitChar _ hlast, List.length_append]
        simp only [List.length_singleton]
        congr 1
        omega

theorem head?_toDigits_append (n : Nat) (cs : List Char) :
    (Nat.toDigits 10 n ++ cs).head? = (Nat.toDigits 10 n).head? := by
  cases h : Nat.toDigits 10 n with
  | nil => exact absurd h Nat.toDigits_ne_nil
  | cons c rest => rfl

/-- A number is written without a leading zero, unless it is nothing else. -/
theorem head?_toDigits {n : Nat} (hn : n ≠ 0) : (Nat.toDigits 10 n).head? ≠ some '0' := by
  induction n using Nat.strongRecOn with
  | ind n ih =>
      by_cases hsmall : n < 10
      · rw [Nat.toDigits_of_lt_base hsmall]
        have hdigit : ∀ d < 10, d ≠ 0 → [Nat.digitChar d].head? ≠ some '0' := by decide
        exact hdigit n hsmall hn
      · rw [Nat.toDigits_of_base_le (by decide) (by omega), head?_toDigits_append]
        exact ih (n / 10) (by omega) (by omega)

/-- Nothing follows, or a sign or line break that ends what stands before it. -/
def Closes : List Char → Prop
  | [] => True
  | c :: _ => c = ',' ∨ c = ']' ∨ c = '\x7d' ∨ c = '\n'

theorem closes_comma (cs : List Char) : Closes (',' :: cs) :=
  Or.inl rfl

theorem closes_list (cs : List Char) : Closes (']' :: cs) :=
  Or.inr (Or.inl rfl)

theorem closes_record (cs : List Char) : Closes ('\x7d' :: cs) :=
  Or.inr (Or.inr (Or.inl rfl))

theorem closes_line (cs : List Char) : Closes ('\n' :: cs) :=
  Or.inr (Or.inr (Or.inr rfl))

theorem Closes.readDigits (h : Closes cs) (n count : Nat) :
    readDigits n count cs = (n, count, cs) := by
  cases cs with
  | nil => rfl
  | cons c cs => rcases h with rfl | rfl | rfl | rfl <;> rfl

/-- An integer without its sign, to the end of its digits. -/
theorem readUnsigned?_toDigits (negative : Bool) (n : Nat) (h : Closes cs) :
    readUnsigned? negative (Nat.toDigits 10 n ++ cs)
      = some (if negative then if n = 0 then .real true 0 0 else .int (-(n : Int))
          else .int n, cs) := by
  have hdigits := (readDigits_toDigits n cs).trans (h.readDigits n _)
  have hcount : (Nat.toDigits 10 n).length ≠ 0 := Nat.ne_of_gt Nat.length_toDigits_pos
  have hzero : ¬ (1 < (Nat.toDigits 10 n).length
      ∧ (Nat.toDigits 10 n ++ cs).head? = some '0') := by
    rintro ⟨hlong, hhead⟩
    rw [head?_toDigits_append] at hhead
    by_cases hn : n = 0
    · subst hn
      exact absurd hlong (by decide)
    · exact head?_toDigits hn hhead
  unfold readUnsigned?
  simp only [hdigits, hcount, hzero, or_self, if_false]
  cases cs with
  | nil => cases negative <;> rfl
  | cons c cs =>
      have hc : c ≠ '.' ∧ c ≠ 'e' ∧ c ≠ 'E' := by
        rcases h with rfl | rfl | rfl | rfl <;> decide
      split
      · next heq => exact absurd (List.cons.inj heq).1 hc.1
      · next heq =>
          obtain ⟨rfl, rfl⟩ := List.cons.inj heq
          rw [if_neg (by simp [hc])]
          cases negative <;> rfl
      · next heq => cases heq

/-- A number in front is read as one, since no number begins like any other token. -/
theorem scanWithin_number {c : Char} {rest : List Char} {d : Datum} (fuel : Nat)
    (hc : c = '-' ∨ (digitValue? c).isSome)
    (hread : readNumber? (c :: cs) = some (d, rest)) :
    scanWithin (fuel + 1) (c :: cs) = (scanWithin fuel rest).map (.scalar d :: ·) := by
  have hspace : isSpace c = false := by
    by_contra hspace
    simp only [isSpace, Bool.not_eq_false, Bool.or_eq_true, beq_iff_eq] at hspace
    rcases hspace with ((rfl | rfl) | rfl) | rfl <;> exact absurd hc (by decide)
  rw [scanWithin]
  · simp [hspace, hread]
  all_goals
    rintro rfl
    exact absurd hc (by decide)

theorem exists_cons_toDigits (n : Nat) :
    ∃ c rest, Nat.toDigits 10 n = c :: rest ∧ (digitValue? c).isSome := by
  cases h : Nat.toDigits 10 n with
  | nil => exact absurd h Nat.toDigits_ne_nil
  | cons c rest =>
      have hdigit : c.isDigit = true :=
        Nat.isDigit_of_mem_toDigits (by decide) (by decide) (h ▸ List.mem_cons_self)
      simp only [Char.isDigit, Bool.and_eq_true, decide_eq_true_eq, ge_iff_le] at hdigit
      have hrange : '0' ≤ c ∧ c ≤ '9' :=
        ⟨Char.le_def.mpr hdigit.1, Char.le_def.mpr hdigit.2⟩
      refine ⟨c, rest, rfl, ?_⟩
      rw [digitValue?, if_pos hrange]
      rfl

theorem Scans.int (i : Int) (hcloses : Closes cs) (h : Scans cs tokens) :
    Scans ((toString i).toList ++ cs) (.scalar (.int i) :: tokens) := by
  cases i with
  | ofNat n =>
      have hchars : (toString (Int.ofNat n)).toList = Nat.toDigits 10 n := by
        change (toString n).toList = _
        simp
      obtain ⟨c, rest, hdigits, hdigit⟩ := exists_cons_toDigits n
      have hread : readNumber? (c :: (rest ++ cs)) = some (.int n, cs) := by
        have hunsigned := readUnsigned?_toDigits false n hcloses
        rw [hdigits] at hunsigned
        rw [readNumber?]
        · exact hunsigned
        · intro cs' hsign
          rw [(List.cons.inj hsign).1] at hdigit
          exact absurd hdigit (by decide)
      rw [hchars, hdigits]
      exact h.step fun fuel => scanWithin_number fuel (Or.inr hdigit) hread
  | negSucc n =>
      have hchars : (toString (Int.negSucc n)).toList = '-' :: Nat.toDigits 10 (n + 1) := by
        change ("-" ++ toString (n + 1)).toList = _
        simp
      have hread : readNumber? ('-' :: (Nat.toDigits 10 (n + 1) ++ cs))
          = some (.int (Int.negSucc n), cs) :=
        readUnsigned?_toDigits true (n + 1) hcloses
      rw [hchars]
      exact h.step fun fuel => scanWithin_number fuel (Or.inl rfl) hread

end Token

end Reconcile.Data
