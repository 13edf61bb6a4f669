import Mathlib.Data.Nat.Basic
import PipelineConfig.Json.Printer
import PipelineConfig.Json.Reader

/-!
# Tokens of JSON, printed and read

The strings and the whole numbers that the printer writes are read back by the reader
(`PipelineConfig.Json.stringRest?_quoted`, `PipelineConfig.Json.Number.read?_intText`). A string ends
at its closing quote, so anything may follow it. A number ends where nothing continues it any more,
so a statement about a number is one about the text behind it as well: what closes a value inside a
document (`PipelineConfig.Json.Closes`) continues no number.

Every whole number that fits 64 bits, with a sign or without, is read exactly. All its digits are
taken up, since no beginning of it is larger than the number, and the printer never writes a needless
zero in front (`PipelineConfig.Json.toDigits_zero_cons`).
-/

namespace PipelineConfig

namespace Json

/-! ### Blanks -/

/-- Blanks and nothing else. -/
def Blank (w : List Char) : Prop :=
  ∀ c ∈ w, isSpace c = true

theorem blank_nil : Blank [] := nofun

theorem skipSpace_append {w : List Char} (hw : Blank w) (cs : List Char) :
    skipSpace (w ++ cs) = skipSpace cs :=
  List.dropWhile_append_of_pos hw

theorem skipSpace_cons {c : Char} (hc : isSpace c = false) (cs : List Char) :
    skipSpace (c :: cs) = c :: cs :=
  List.dropWhile_cons_of_neg (by simp [hc])

/-! ### What may follow a value -/

/-- What may come behind a value inside a document: nothing, a blank or punctuation. -/
def Closes (rest : List Char) : Prop :=
  ∀ c ∈ rest.head?, isSpace c = true ∨ c = ',' ∨ c = ']' ∨ c = '\x7d'

theorem closes_cons {c : Char} (h : isSpace c = true ∨ c = ',' ∨ c = ']' ∨ c = '\x7d')
    (rest : List Char) : Closes (c :: rest) := by
  intro d hd
  obtain rfl := Option.some.inj hd
  exact h

/-- Blanks may come in between. -/
theorem Closes.append {rest : List Char} (h : Closes rest) {w : List Char} (hw : Blank w) :
    Closes (w ++ rest) := by
  rcases w with _ | ⟨c, w⟩
  · exact h
  · exact closes_cons (.inl (hw c List.mem_cons_self)) (w ++ rest)

theorem Closes.continues_no_number {c : Char} {rest : List Char} (h : Closes (c :: rest)) :
    c.isDigit = false ∧ c ≠ '.' ∧ c ≠ 'e' ∧ c ≠ 'E' := by
  have hc := h c rfl
  simp only [isSpace, Bool.or_eq_true, decide_eq_true_eq] at hc
  rcases hc with (((rfl | rfl) | rfl) | rfl) | rfl | rfl | rfl <;> decide

/-! ### Strings -/

theorem hexValue?_hexDigit : ∀ d < 16, hexValue? (hexDigit d) = some d := by
  decide

theorem hex4?_hexDigit {n : Nat} (hn : n < 256) :
    hex4? '0' '0' (hexDigit (n / 16)) (hexDigit (n % 16)) = some n := by
  have hzero : hexValue? '0' = some 0 := by decide
  simp only [hex4?, hzero, hexValue?_hexDigit (n / 16) (by omega),
    hexValue?_hexDigit (n % 16) (by omega)]
  exact congrArg some (by omega)

theorem stringRest?_cons {c : Char} (hquote : c ≠ '"') (hback : c ≠ '\\') (hcontrol : 32 ≤ c.toNat)
    (cs : List Char) :
    stringRest? (c :: cs) = (stringRest? cs).map (fun p => (c :: p.1, p.2)) := by
  rw [stringRest?.eq_def]
  split
  case h_1 heq => cases heq
  case h_2 heq => exact absurd (List.cons.inj heq).1 hquote
  case h_3 heq => exact absurd (List.cons.inj heq).1 hback
  case h_4 heq => exact absurd (List.cons.inj heq).1 hback
  case h_5 heq =>
    obtain ⟨rfl, rfl⟩ := List.cons.inj heq
    rw [if_neg (by omega)]

/-- An escaped character is read as the character. -/
theorem stringRest?_escapeChar (c : Char) (cs : List Char) :
    stringRest? (escapeChar c ++ cs) = (stringRest? cs).map (fun p => (c :: p.1, p.2)) := by
  unfold escapeChar
  split
  case h_6 hquote hback _ _ _ =>
    by_cases hb : c.toNat = 8
    · obtain rfl : c = Char.ofNat 8 := by rw [← hb, Char.ofNat_toNat]
      rfl
    by_cases hf : c.toNat = 12
    · obtain rfl : c = Char.ofNat 12 := by rw [← hf, Char.ofNat_toNat]
      rfl
    by_cases hcontrol : c.toNat < 32
    · have hcode := hex4?_hexDigit (n := c.toNat) (by omega)
      simp [hb, hf, hcontrol, stringRest?, hcode, Char.ofNat_toNat]
      omega
    · simp only [hb, hf, hcontrol, if_false]
      exact stringRest?_cons hquote hback (by omega) cs
  all_goals simp [stringRest?, unescape?]

/-- **A quoted text is read back**, whatever stands behind its closing quote. -/
theorem stringRest?_quoted (cs rest : List Char) :
    stringRest? (cs.flatMap escapeChar ++ '"' :: rest) = some (cs, rest) := by
  induction cs with
  | nil => rfl
  | cons c cs ih =>
    rw [List.flatMap_cons, List.append_assoc, stringRest?_escapeChar, ih]
    rfl

/-! ### Digits -/

/-- No number is written with a needless zero in front. -/
theorem toDigits_zero_cons {n : Nat} {ds : List Char} (h : Nat.toDigits 10 n = '0' :: ds) :
    ds = [] := by
  induction n using Nat.strong_induction_on generalizing ds with
  | _ n ih =>
    by_cases hn : n < 10
    · rw [Nat.toDigits_of_lt_base hn] at h
      exact (List.cons.inj h).2.symm
    · rw [Nat.toDigits_of_base_le (by omega) (by omega)] at h
      rcases hfront : Nat.toDigits 10 (n / 10) with _ | ⟨c, front⟩
      · exact absurd hfront Nat.toDigits_ne_nil
      · rw [hfront, List.cons_append, List.cons.injEq] at h
        obtain ⟨rfl, -⟩ := h
        obtain rfl := ih (n / 10) (by omega) hfront
        -- the digits in front would write zero
        have hvalue : n / 10 = 0 := by
          rw [← Nat.ofDigitChars_ten_toDigits (n := n / 10), hfront]
          rfl
        omega

theorem isDigit_of_mem_toDigits {n : Nat} {c : Char} (h : c ∈ Nat.toDigits 10 n) :
    c.isDigit = true :=
  Nat.isDigit_of_mem_toDigits (by omega) le_rfl h

theorem splitDigits_toDigits (n : Nat) {rest : List Char} (hrest : Closes rest) :
    Decimal.splitDigits (Nat.toDigits 10 n ++ rest) = (Nat.toDigits 10 n, rest) := by
  have hdigits : ∀ c ∈ Nat.toDigits 10 n, c.isDigit = true := fun c => isDigit_of_mem_toDigits
  rw [Decimal.splitDigits, List.takeWhile_append_of_pos hdigits,
    List.dropWhile_append_of_pos hdigits]
  rcases rest with _ | ⟨c, rest⟩
  · simp
  · have hc := hrest.continues_no_number.1
    rw [List.takeWhile_cons_of_neg (by simp [hc]), List.dropWhile_cons_of_neg (by simp [hc]),
      List.append_nil]

theorem le_ofDigits_from (ds : List Char) (n : Nat) : n ≤ Nat.ofDigitChars 10 ds n := by
  induction ds generalizing n with
  | nil => exact le_rfl
  | cons c ds ih => exact le_trans (show n ≤ 10 * n + (c.toNat - '0'.toNat) by omega) (ih _)

namespace Number

/-- The digits of a number that fits are all taken up. -/
theorem absorb_of_holds {n : Nat} {ds : List Char}
    (h : Width.holds 64 (Nat.ofDigitChars 10 ds n) = true) :
    absorb n ds = (Nat.ofDigitChars 10 ds n, ds.length) := by
  induction ds generalizing n with
  | nil => rfl
  | cons c ds ih =>
    have hnext : Width.holds 64 (10 * n + (c.toNat - '0'.toNat)) = true :=
      decide_eq_true (lt_of_le_of_lt (le_ofDigits_from ds _) (of_decide_eq_true h))
    simp only [absorb, if_pos hnext, ih h]
    rfl

/-! ### Whole numbers -/

/-- Read a number whose sign has been read. -/
def readUnsigned? (negative : Bool) (cs : List Char) : Option (Number × List Char) :=
  let (whole, rest) := Decimal.splitDigits cs
  match whole with
  | [] => none
  | '0' :: _ :: _ => none
  | _ =>
    let (significand, taken) := absorb 0 whole
    afterWhole negative significand (whole.length - taken) rest

theorem read?_minus (cs : List Char) : read? ('-' :: cs) = readUnsigned? true cs := rfl

theorem read?_of_ne {c : Char} (h : c ≠ '-') (cs : List Char) :
    read? (c :: cs) = readUnsigned? false (c :: cs) := by
  unfold read?
  split
  next heq =>
    split at heq
    · next hcons => exact absurd (List.cons.inj hcons).1 h
    · obtain ⟨rfl, rfl⟩ := Prod.mk.inj heq
      rfl

/-- The digits of a number are its significand, and none of them is dropped. -/
theorem readUnsigned?_toDigits (negative : Bool) {n : Nat} (hn : Width.holds 64 n = true)
    {rest : List Char} (hrest : Closes rest) :
    readUnsigned? negative (Nat.toDigits 10 n ++ rest) = afterWhole negative n 0 rest := by
  have habsorb : absorb 0 (Nat.toDigits 10 n) = (n, (Nat.toDigits 10 n).length) := by
    rw [absorb_of_holds (by rwa [Nat.ofDigitChars_ten_toDigits]), Nat.ofDigitChars_ten_toDigits]
  rw [readUnsigned?, splitDigits_toDigits n hrest]
  dsimp only
  split
  case h_1 hnil => exact absurd hnil Nat.toDigits_ne_nil
  case h_2 hzero => cases toDigits_zero_cons hzero
  case h_3 => rw [habsorb, Nat.sub_self]

/-- Where nothing continues a number, its significand is its value. -/
theorem afterWhole_of_closes {rest : List Char} (hrest : Closes rest) (negative : Bool) (n : Nat) :
    afterWhole negative n 0 rest =
      if !negative then some (.int n, rest)
      else if n = 0 || !Width.holdsSigned 64 (-n) then some (.float (-(Float.ofNat n)), rest)
      else some (.int (-n), rest) := by
  unfold afterWhole
  split
  · exact absurd rfl hrest.continues_no_number.2.1
  · exact absurd rfl hrest.continues_no_number.2.2.1
  · exact absurd rfl hrest.continues_no_number.2.2.2
  · rfl

/-- **A whole number that fits is read back**, where nothing continues it. -/
theorem read?_intText {n : Int} (hn : Width.holdsEither 64 n = true) {rest : List Char}
    (hrest : Closes rest) : read? (intText n ++ rest) = some (.int n, rest) := by
  cases n with
  | ofNat n =>
    have htext : intText (Int.ofNat n) = Nat.toDigits 10 n := by simp [intText]
    have hread := readUnsigned?_toDigits false hn hrest
    rw [htext]
    rcases hd : Nat.toDigits 10 n with _ | ⟨c, ds⟩
    · exact absurd hd Nat.toDigits_ne_nil
    -- the first digit is no sign
    have hc : c ≠ '-' := by
      rintro rfl
      exact absurd (isDigit_of_mem_toDigits (c := '-') (n := n) (by simp [hd])) (by decide)
    rw [hd, afterWhole_of_closes hrest] at hread
    rw [List.cons_append, read?_of_ne hc]
    exact hread
  | negSucc n =>
    have hlt : n < 2 ^ 63 := of_decide_eq_true hn
    have hfits : Width.holds 64 (n + 1) = true := decide_eq_true (show n + 1 < 2 ^ 64 by omega)
    have htext : intText (Int.negSucc n) = '-' :: Nat.toDigits 10 (n + 1) := by simp [intText]
    have hsigned : Width.holdsSigned 64 (-((n + 1 : Nat) : Int)) = true := hn
    rw [htext, List.cons_append, read?_minus, readUnsigned?_toDigits true hfits hrest,
      afterWhole_of_closes hrest, hsigned]
    rfl

/-! ### Numbers that are read -/

/-- A number that is taken up fits, as long as nothing was taken up before that does not. -/
theorem holds_absorb {n : Nat} (hn : Width.holds 64 n = true) (ds : List Char) :
    Width.holds 64 (absorb n ds).1 = true := by
  induction ds generalizing n with
  | nil => exact hn
  | cons c ds ih =>
    rw [absorb]
    split
    · next hnext => exact ih hnext
    · exact hn

theorem bind_float_ne_int {x? : Option Float} {r rest : List Char} {n : Int} :
    (x?.bind fun x => some (Number.float x, r)) ≠ some (.int n, rest) := by
  cases x? <;> simp

/-- With a fraction or an exponent, there is no whole number any more. -/
theorem withExponent_ne_int {negative : Bool} {significand : Nat} {places n : Int}
    {cs rest : List Char} :
    afterWhole.withExponent negative significand places cs ≠ some (.int n, rest) := by
  intro h
  rw [afterWhole.withExponent.eq_def] at h
  split at h <;>
  · obtain ⟨e, -, hfloat⟩ := Option.bind_eq_some_iff.mp h
    exact bind_float_ne_int hfloat

theorem holdsEither_of_afterWhole {negative : Bool} {significand dropped : Nat} {n : Int}
    {cs rest : List Char} (hfits : Width.holds 64 significand = true)
    (h : afterWhole negative significand dropped cs = some (.int n, rest)) :
    Width.holdsEither 64 n = true := by
  rw [afterWhole.eq_def] at h
  split at h
  · dsimp only at h
    split_ifs at h
    exact absurd h withExponent_ne_int
  · exact absurd h withExponent_ne_int
  · exact absurd h withExponent_ne_int
  · split_ifs at h with hdropped hsign hfloat
    · exact absurd h bind_float_ne_int
    · obtain ⟨hn, -⟩ := Prod.mk.inj (Option.some.inj h)
      obtain rfl := Number.int.inj hn
      exact hfits
    · cases h
    · obtain ⟨hn, -⟩ := Prod.mk.inj (Option.some.inj h)
      obtain rfl := Number.int.inj hn
      simp only [Bool.or_eq_true, decide_eq_true_eq, Bool.not_eq_true', not_or,
        Bool.not_eq_false] at hfloat
      obtain ⟨m, rfl⟩ := Nat.exists_eq_succ_of_ne_zero hfloat.1
      exact hfloat.2

/-- **A whole number that is read fits**, with a sign or without. -/
theorem holdsEither_of_read? {n : Int} {cs rest : List Char}
    (h : read? cs = some (.int n, rest)) : Width.holdsEither 64 n = true := by
  have hunsigned : ∀ negative cs, readUnsigned? negative cs = some (.int n, rest) →
      Width.holdsEither 64 n = true := by
    intro negative cs h
    rw [readUnsigned?] at h
    dsimp only at h
    split at h
    · cases h
    · cases h
    · exact holdsEither_of_afterWhole (holds_absorb (by decide) _) h
  rcases cs with _ | ⟨c, cs⟩
  · exact hunsigned false [] h
  · by_cases hc : c = '-'
    · subst hc
      exact hunsigned true cs h
    · rw [read?_of_ne hc] at h
      exact hunsigned false (c :: cs) h

end Number

theorem intText_head (n : Int) : ∃ c ds, intText n = c :: ds ∧ (c.isDigit = true ∨ c = '-') := by
  unfold intText
  split
  · exact ⟨'-', _, rfl, .inr rfl⟩
  · rcases hd : Nat.toDigits 10 n.natAbs with _ | ⟨c, ds⟩
    · exact absurd hd Nat.toDigits_ne_nil
    · have hmem : c ∈ Nat.toDigits 10 n.natAbs := by simp [hd]
      exact ⟨c, ds, rfl, .inl (isDigit_of_mem_toDigits hmem)⟩

end Json

end PipelineConfig
