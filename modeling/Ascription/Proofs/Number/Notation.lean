import Ascription.Proofs.Number.Plain
import Ascription.Proofs.Token.Lexes

/-!
# Proofs/Number/Notation — every notation reads back

    number ──text──▸ whole.fraction e exponent ──readBinary64──▸ number

Whatever a notation decides, its text shows digits, possibly a point among them and possibly an
exponent. They denote the shortest decimal, which rounds to the number.
-/

namespace Ascription

namespace Binary64

variable {x : Binary64}

theorem exponent_le (hx : x.isFinite = true) : x.exponent ≤ 971 := by
  have hlt : x.code.val < infinityCode := of_decide_eq_true hx
  have hdiv : x.code.val / binade < 2047 := Nat.div_lt_of_lt_mul (Nat.mul_comm _ _ ▸ hlt)
  rw [exponent]
  split <;> omega

/-- What rounds to a finite number is not too big to be read. -/
theorem Covers.lt {v : ℚ} (hx : x.isFinite = true) (h : x.Covers v) : v < 10 ^ 401 := by
  have hq := x.exponent_le hx
  have hm : (4 * x.significand + 2 : ℚ) ≤ 2 ^ 56 := by
    have hlt := x.significand_lt
    have hle : 4 * x.significand + 2 ≤ 2 ^ 56 := by
      rw [binade] at hlt
      omega
    exact_mod_cast hle
  calc v ≤ x.interval.high * 2 ^ (x.exponent - 2) := h.bounds.2
    _ ≤ x.interval.high * 2 ^ (969 : ℤ) := by
        gcongr
        · exact one_le_two
        · omega
    _ = (4 * x.significand + 2) * 2 ^ (969 : ℤ) := by simp [interval]
    _ ≤ 2 ^ (56 : ℤ) * 2 ^ (969 : ℤ) := by gcongr; exact hm
    _ ≤ 2 ^ (3 * 401 : ℤ) := by
        rw [← zpow_add₀ two_ne_zero]
        exact zpow_le_zpow_right₀ one_le_two (by decide)
    _ = 8 ^ 401 := by
        rw [zpow_mul]
        norm_num
    _ < 10 ^ 401 := by gcongr; norm_num

/-- **A decimal that rounds to a number is read as the number**, whatever its exponent. -/
theorem ofDecimal_of_covers (hx : x.isFinite = true) (hzero : x.isZero = false) {n : Nat} {k : Int}
    (h : x.Covers (n * 10 ^ k)) : ofDecimal x.negative n k = x := by
  cases k with
  | negSucc j =>
    refine ofDecimal_eq hx hzero (j := j + 1) (Nat.succ_pos j) ?_
    rwa [zpow_negSucc, ← div_eq_mul_inv] at h
  | ofNat k =>
    rw [Int.ofNat_eq_natCast] at h ⊢
    rw [zpow_natCast] at h
    have hn : n ≠ 0 := by
      rintro rfl
      have hpos : (0 : ℚ) < 2 ^ (-1075 : ℤ) := by positivity
      have hle := h.ge hzero
      rw [Nat.cast_zero, zero_mul] at hle
      exact absurd hle (not_le.mpr hpos)
    -- the power of ten is small enough to be formed
    have hk : k < 401 := by
      have hone : (1 : ℚ) ≤ n := by exact_mod_cast Nat.one_le_iff_ne_zero.mpr hn
      have hlt : (10 : ℚ) ^ k < 10 ^ 401 :=
        (le_mul_of_one_le_left (by positivity) hone).trans_lt (h.lt hx)
      exact (pow_lt_pow_iff_right₀ (by norm_num)).mp hlt
    have hcode : codeOf (n * 10 ^ k) 1 = x.code.val := by
      refine codeOf_eq hx (mul_ne_zero hn (by positivity)) one_pos ?_
      push_cast
      rwa [div_one]
    rw [ofDecimal, if_neg hn, if_neg (by omega), if_neg (by omega), if_pos (by omega)]
    exact congrArg (Binary64.mk x.negative) (Fin.ext hcode)

end Binary64

namespace Numeral

open Lexer (takeWhile_append dropWhile_append)

/-! ## The parts of a numeral -/

/-- A point and the digits behind it, unless there are none. -/
def point (fraction : List Char) : List Char := if fraction.isEmpty then [] else '.' :: fraction

/-- A character that may stand in a numeral without a sign. -/
def isNumeric (c : Char) : Bool := isDigit c || c == '.' || c == 'e' || c == '-' || c == '+'

theorem isNumeric_of_isDigit {c : Char} (hc : isDigit c = true) : isNumeric c = true := by
  simp [isNumeric, hc]

/-- **The parts of a numeral** of value `v`: digits, digits behind a point, and the rest with the
exponent. -/
structure Parts (v : ℚ) (whole fraction tail : List Char) (e : Int) : Prop where
  some : whole ≠ []
  whole_digits : ∀ c ∈ whole, isDigit c = true
  fraction_digits : ∀ c ∈ fraction, isDigit c = true
  tail_head : ∀ c ∈ tail.head?, c = 'e'
  tail_numeric : ∀ c ∈ tail, isNumeric c = true
  exponent : readExponent tail = .some e
  value : (natural (whole ++ fraction) : ℚ) * 10 ^ (e - fraction.length) = v

/-- Digits around a point, without an exponent. -/
theorem Point.parts {d : Decimal} {ds es : List Char} (h : Point d ds es) :
    Parts d.value ds es [] 0 where
  some := h.whole
  whole_digits := h.whole_digits
  fraction_digits := h.fraction_digits
  tail_head := fun _ hc => absurd hc (Option.not_mem_none _)
  tail_numeric := List.forall_mem_nil _
  exponent := rfl
  value := by rw [zero_sub, zpow_neg, zpow_natCast, ← div_eq_mul_inv, h.value]

theorem Point.point {d : Decimal} {ds es : List Char} (h : Point d ds es) :
    point es = '.' :: es := by
  rw [Numeral.point, if_neg (by simpa using h.fraction)]

theorem toLower_of_isDigit {c : Char} (hc : isDigit c = true) : c.toLower = c := by
  have hle : c ≤ '9' := of_decide_eq_true (Bool.and_eq_true_iff.mp hc).2
  have hupper : ¬ (c.val ≥ 'A'.val ∧ c.val ≤ 'Z'.val) := fun h =>
    absurd (UInt32.le_trans h.1 hle) (by decide)
  exact dif_neg hupper

/-- What starts with a digit is no word. -/
theorem lower_ne_word {c d : Char} {cs : List Char} {w : String} (hc : isDigit c = true)
    (hw : w.toList.head? = some d) (hd : isDigit d = false) :
    String.ofList ((c :: cs).map Char.toLower) ≠ w := by
  rintro rfl
  rw [String.toList_ofList, List.map_cons, List.head?_cons, toLower_of_isDigit hc] at hw
  exact isDigit_ne hc hd (Option.some.inj hw)

section

variable {v : ℚ} {whole fraction tail : List Char} {e : Int}

theorem Parts.tail_ends (h : Parts v whole fraction tail e) :
    ∀ c ∈ tail.head?, isDigit c = false := by
  intro c hc
  rw [h.tail_head c hc]
  rfl

theorem Parts.whole_ends (h : Parts v whole fraction tail e) :
    ∀ c ∈ (Numeral.point fraction ++ tail).head?, isDigit c = false := by
  cases fraction with
  | nil => exact h.tail_ends
  | cons => rintro _ ⟨⟩; rfl

/-- **A numeral is read** as the double nearest to its decimal. -/
theorem Parts.readBinary64 (h : Parts v whole fraction tail e) (negative : Bool) :
    Numeral.readBinary64
      (String.ofList (sign negative ++ (whole ++ (Numeral.point fraction ++ tail)))) =
      .some (Binary64.ofDecimal negative (natural (whole ++ fraction)) (e - fraction.length)) := by
  have hwhole := takeWhile_append h.whole_digits h.whole_ends
  have hrest := dropWhile_append h.whole_digits h.whole_ends
  have hdigits := h.whole_digits
  obtain ⟨c, cs, rfl⟩ := List.exists_cons_of_ne_nil h.some
  have hc : isDigit c = true := hdigits c List.mem_cons_self
  rw [List.cons_append] at hwhole hrest ⊢
  rw [Numeral.readBinary64, String.toList_ofList, splitSign_sign hc]
  simp only [lower_ne_word (w := "inf") hc rfl rfl, lower_ne_word (w := "infinity") hc rfl rfl,
    lower_ne_word (w := "nan") hc rfl rfl, hwhole, hrest, decide_false, Bool.or_false,
    Bool.false_eq_true, if_false, List.isEmpty_cons, Bool.false_and]
  have hread : ∀ fraction' tail', fraction' = fraction → tail' = tail →
      ((readExponent tail').map fun e => Binary64.ofDecimal negative
        (natural (c :: cs ++ fraction')) (e - fraction'.length)) =
        .some (Binary64.ofDecimal negative (natural (c :: cs ++ fraction))
          (e - fraction.length)) := by
    rintro _ _ rfl rfl
    rw [h.exponent]
    rfl
  cases fraction with
  | nil =>
    cases tail with
    | nil => exact hread [] [] rfl rfl
    | cons d ds =>
      obtain rfl := h.tail_head d rfl
      exact hread [] _ rfl rfl
  | cons d ds =>
    exact hread _ _ (takeWhile_append h.fraction_digits h.tail_ends)
      (dropWhile_append h.fraction_digits h.tail_ends)

/-- The characters of a numeral. -/
theorem Parts.isNumeric (h : Parts v whole fraction tail e) :
    ∀ c ∈ whole ++ (Numeral.point fraction ++ tail), Numeral.isNumeric c = true := by
  intro c hc
  obtain hc | hc := List.mem_append.mp hc
  · exact isNumeric_of_isDigit (h.whole_digits c hc)
  obtain hc | hc := List.mem_append.mp hc
  · rw [Numeral.point] at hc
    split at hc
    · cases hc
    · obtain rfl | hc := List.mem_cons.mp hc
      · rfl
      · exact isNumeric_of_isDigit (h.fraction_digits c hc)
  · exact h.tail_numeric c hc

end

/-! ## The parts of a number's text -/

/-- Without an exponent. -/
theorem parts_spread (pointZero : Bool) (n : Nat) (k : Int) : ∃ whole fraction,
    Notation.spread pointZero (Notation.digits n) k = whole ++ (point fraction ++ []) ∧
      Parts (Decimal.mk n k).value whole fraction [] 0 := by
  have hpoint : (∃ ds es, Notation.spread pointZero (Notation.digits n) k = ds ++ '.' :: es ∧
      Point ⟨n, k⟩ ds es) → ∃ whole fraction, Notation.spread pointZero (Notation.digits n) k =
        whole ++ (point fraction ++ []) ∧ Parts (Decimal.mk n k).value whole fraction [] 0 := by
    rintro ⟨ds, es, htext, h⟩
    exact ⟨ds, es, by rw [htext, h.point, List.append_nil], h.parts⟩
  obtain hk | hk := lt_or_ge k 0
  · exact hpoint (point_of_neg hk pointZero)
  cases pointZero with
  | true => exact hpoint (point_of_nonneg hk)
  | false =>
    refine ⟨Notation.digits n ++ List.replicate k.toNat '0', [], ?_, ?_⟩
    · rw [Notation.spread, if_pos hk]
      rfl
    · refine ⟨by simp [digits_ne_nil], isDigit_append isDigit_digits isDigit_zeros,
        List.forall_mem_nil _, fun _ hc => absurd hc (Option.not_mem_none _), List.forall_mem_nil _,
        rfl, ?_⟩
      rw [List.append_nil, natural_append, natural_replicate_zero, natural_digits,
        List.length_replicate, Decimal.value, ← Binary64.pow_toNat hk]
      push_cast
      simp [mul_comm]

/-- An exponent behind the digits. -/
def exponentPart (plusSign : Bool) (e : Int) : List Char :=
  'e' :: (if e < 0 then '-' :: Notation.digits e.natAbs
    else if plusSign then '+' :: Notation.digits e.natAbs
    else Notation.digits e.natAbs)

theorem scientific_eq {plusSign : Bool} {ds : List Char} {e : Int} :
    Notation.scientific plusSign ds e =
      ds.take 1 ++ (point (ds.drop 1) ++ exponentPart plusSign e) :=
  List.append_assoc ..

theorem isNumeric_exponentPart {plusSign : Bool} {e : Int} :
    ∀ c ∈ exponentPart plusSign e, isNumeric c = true := by
  have hdigits : ∀ c ∈ Notation.digits e.natAbs, isNumeric c = true := fun c hc =>
    isNumeric_of_isDigit (isDigit_digits c hc)
  refine List.forall_mem_cons.mpr ⟨rfl, ?_⟩
  split
  · exact List.forall_mem_cons.mpr ⟨rfl, hdigits⟩
  split
  · exact List.forall_mem_cons.mpr ⟨rfl, hdigits⟩
  · exact hdigits

theorem readExponent_exponentPart {plusSign : Bool} {e : Int} :
    readExponent (exponentPart plusSign e) = some e := by
  obtain ⟨c, cs, hcs⟩ := List.exists_cons_of_ne_nil (digits_ne_nil (n := e.natAbs))
  have hdigits : ∀ d ∈ c :: cs, isDigit d = true := hcs ▸ isDigit_digits
  have hvalue : natural (c :: cs) = e.natAbs := hcs ▸ natural_digits
  have hread : ∀ {negative text}, splitSign text = (negative, c :: cs) →
      readExponent ('e' :: text) = some (if negative then -(e.natAbs : Int) else e.natAbs) := by
    intro negative text hsplit
    rw [readExponent, hsplit]
    simp only
    rw [if_neg (by simpa using hdigits), hvalue]
  rw [exponentPart, hcs]
  split
  case isTrue he =>
    have hneg : some (if true then -(e.natAbs : Int) else e.natAbs) = some e :=
      congrArg some (by rw [if_pos rfl]; omega)
    exact (hread rfl).trans hneg
  case isFalse he =>
    have hnonneg : some (if false then -(e.natAbs : Int) else e.natAbs) = some e :=
      congrArg some (by rw [if_neg (by decide)]; omega)
    split
    · exact (hread rfl).trans hnonneg
    · have hplain : splitSign (c :: cs) = (false, c :: cs) :=
        @splitSign_sign false c cs (hdigits c List.mem_cons_self)
      exact (hread hplain).trans hnonneg

/-- With an exponent. -/
theorem parts_scientific (plusSign : Bool) (n : Nat) (k : Int) : ∃ whole fraction tail e,
    Notation.scientific plusSign (Notation.digits n) ((Notation.digits n).length + k - 1) =
      whole ++ (point fraction ++ tail) ∧ Parts (Decimal.mk n k).value whole fraction tail e := by
  have hlength : 0 < (Notation.digits n).length := List.length_pos_iff.mpr digits_ne_nil
  refine ⟨_, _, _, _, scientific_eq, ?some, fun c hc => isDigit_digits c (List.mem_of_mem_take hc),
    fun c hc => isDigit_digits c (List.mem_of_mem_drop hc), ?head, isNumeric_exponentPart,
    readExponent_exponentPart, ?value⟩
  case some =>
    rw [Ne, List.take_eq_nil_iff]
    exact not_or.mpr ⟨one_ne_zero, digits_ne_nil⟩
  case head =>
    rintro _ ⟨⟩
    rfl
  case value =>
    have hexponent :
        ((Notation.digits n).length + k - 1 - ((Notation.digits n).drop 1).length : Int) =
        k := by
      rw [List.length_drop]
      omega
    rw [List.take_append_drop, natural_digits, hexponent]
    rfl

/-- **The parts of the text of a number** denote its shortest decimal. -/
theorem parts_magnitude (n : Notation) (x : Binary64) : ∃ whole fraction tail e,
    n.magnitude x = whole ++ (point fraction ++ tail) ∧
      Parts (x.shortest n.halfway).value whole fraction tail e := by
  simp only [Notation.magnitude]
  split
  · obtain ⟨whole, fraction, h⟩ := parts_spread n.pointZero (x.shortest n.halfway).digits
      (x.shortest n.halfway).exponent
    exact ⟨whole, fraction, [], 0, h⟩
  · exact parts_scientific n.plusSign _ _

/-! ## Reading back -/

/-- **A number reads back from its text**, in every notation. -/
theorem readBinary64_text (n : Notation) {x : Binary64} (hx : x.isNaN = false) :
    readBinary64 (n.text x) = some x := by
  cases hfinite : x.isFinite with
  | true =>
    obtain ⟨whole, fraction, tail, e, htext, h⟩ := parts_magnitude n x
    rw [text_of_isFinite hfinite, htext, h.readBinary64]
    cases hzero : x.isZero with
    | true =>
      have hcode : x.code.val = 0 := by simpa [Binary64.isZero] using hzero
      have hnatural : natural (whole ++ fraction) = 0 := by
        have hvalue := h.value
        rw [Binary64.shortest, if_pos hzero, Decimal.value, Nat.cast_zero, zero_mul] at hvalue
        have hten : (10 : ℚ) ^ (e - fraction.length) ≠ 0 := by positivity
        exact_mod_cast (mul_eq_zero.mp hvalue).resolve_right hten
      rw [hnatural]
      exact congrArg (fun code => some (Binary64.mk x.negative code)) (Fin.ext hcode.symm)
    | false =>
      refine congrArg some (Binary64.ofDecimal_of_covers hfinite hzero ?_)
      rw [h.value]
      exact Binary64.shortest_covers hzero
  | false =>
    have hle : x.code.val ≤ Binary64.infinityCode := Nat.not_lt.mp (of_decide_eq_false hx)
    have hge : Binary64.infinityCode ≤ x.code.val := Nat.not_lt.mp (of_decide_eq_false hfinite)
    have hinfinite : x = Binary64.infinity x.negative :=
      congrArg (Binary64.mk x.negative) (Fin.ext (Nat.le_antisymm hle hge))
    have htext : ∀ negative, n.text (Binary64.infinity negative) =
        if negative then "-inf" else "inf" := by
      rintro (_ | _) <;> rfl
    rw [hinfinite, htext]
    cases x.negative <;> decide

/-- The magnitudes of two finite numbers show which numbers they are. -/
theorem magnitude_inj {n : Notation} {x y : Binary64} (hx : x.isFinite = true)
    (hy : y.isFinite = true) (hsign : x.negative = y.negative)
    (h : n.magnitude x = n.magnitude y) : x = y := by
  have htext : n.text x = n.text y := by rw [text_of_isFinite hx, text_of_isFinite hy, hsign, h]
  have hread := congrArg readBinary64 htext
  rw [readBinary64_text n (Binary64.isNaN_eq_false_of_isFinite hx),
    readBinary64_text n (Binary64.isNaN_eq_false_of_isFinite hy)] at hread
  exact Option.some.inj hread

/-- A magnitude shows no sign. -/
theorem magnitude_congr {n : Notation} {x y : Binary64} (h : x.code = y.code) :
    n.magnitude x = n.magnitude y := by
  rw [Notation.magnitude, Notation.magnitude, Binary64.shortest_congr h]

theorem isNumeric_magnitude {n : Notation} {x : Binary64} :
    ∀ c ∈ n.magnitude x, isNumeric c = true := by
  obtain ⟨whole, fraction, tail, e, htext, h⟩ := parts_magnitude n x
  rw [htext]
  exact h.isNumeric

/-- A magnitude starts with a digit. -/
theorem exists_magnitude_eq_cons (n : Notation) (x : Binary64) :
    ∃ c cs, n.magnitude x = c :: cs ∧ isDigit c = true := by
  obtain ⟨whole, fraction, tail, e, htext, h⟩ := parts_magnitude n x
  obtain ⟨c, cs, rfl⟩ := List.exists_cons_of_ne_nil h.some
  exact ⟨c, _, htext, h.whole_digits c List.mem_cons_self⟩

end Numeral

end Ascription
