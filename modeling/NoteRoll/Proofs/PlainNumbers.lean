import NoteRoll.Proofs.Binary64
import NoteRoll.Proofs.JsonLexemes
import NoteRoll.Proofs.YamlTokens

/-!
# Numbers as plain scalars

A number of the settings stands without quotes, so its text must be one that no mark of the
notation begins, and that is not taken for another kind of number. Its first character that is
no sign is a digit, and only digits, signs, a point and an `e` follow: there is no colon, no
number sign and no blank in it, and what begins with a point is no decimal.

Numbers that are not finite have names. At `Float` there is one number for each name, except
that of the missing number, which equals nothing.
-/

namespace NoteRoll

namespace Yaml

/-! ## Texts of digits -/

/-- Characters of decimals. -/
def isNumberChar (c : Char) : Bool := isDigit c || c == '-' || c == '.' || c == 'e'

/-- Texts that begin with a digit and go on like a decimal. -/
def IsUnsigned (cs : List Char) : Prop :=
  ∃ c ds, cs = c :: ds ∧ isDigit c = true ∧ ∀ d ∈ ds, isNumberChar d = true

theorem isNumberChar_of_isDigit {c : Char} (h : isDigit c = true) : isNumberChar c = true := by
  rw [isNumberChar, h]
  rfl

theorem toNat_of_isNumberChar {c : Char} (h : isNumberChar c = true) :
    45 ≤ c.toNat ∧ c.toNat ≤ 101 ∧ c.toNat ≠ 58 := by
  simp only [isNumberChar, isDigit, Bool.or_eq_true, Bool.and_eq_true, decide_eq_true_eq,
    beq_iff_eq] at h
  rcases h with ((⟨hlow, hhigh⟩ | rfl) | rfl) | rfl
  · have hlow' : 48 ≤ c.toNat := Char.le_def.1 hlow
    have hhigh' : c.toNat ≤ 57 := Char.le_def.1 hhigh
    omega
  all_goals decide

theorem IsUnsigned.append {cs ds : List Char} (h : IsUnsigned cs)
    (hds : ∀ d ∈ ds, isNumberChar d = true) : IsUnsigned (cs ++ ds) := by
  obtain ⟨c, more, rfl, hc, hmore⟩ := h
  exact ⟨c, more ++ ds, rfl, hc, fun d hd => (List.mem_append.1 hd).elim (hmore d) (hds d)⟩

theorem isUnsigned_of_digits {cs : List Char} (hne : cs ≠ []) (h : ∀ c ∈ cs, isDigit c = true) :
    IsUnsigned cs := by
  obtain ⟨c, ds, rfl⟩ := List.exists_cons_of_ne_nil hne
  obtain ⟨hc, hds⟩ := List.forall_mem_cons.1 h
  exact ⟨c, ds, rfl, hc, fun d hd => isNumberChar_of_isDigit (hds d hd)⟩

theorem toDigits_ne_nil (n : Nat) : Nat.toDigits 10 n ≠ [] := by
  obtain ⟨c, cs, hdigits, -⟩ := Json.toDigits_head n
  rw [hdigits]
  exact List.cons_ne_nil c cs

theorem isNumberChar_of_mem_zeros {n : Nat} {c : Char} (h : c ∈ (Decimal.zeros n).toList) :
    isNumberChar c = true := by
  rw [Decimal.zeros, String.toList_ofList] at h
  rw [List.eq_of_mem_replicate h]
  decide

section Layouts

variable {digits : String} (hne : digits.toList ≠ [])
  (hdigits : ∀ c ∈ digits.toList, isDigit c = true)
include hne hdigits

theorem isUnsigned_pointed {before : Nat} (hbefore : 0 < before) :
    IsUnsigned (Decimal.pointed digits before).toList := by
  have htake : digits.toList.take before ≠ [] := by
    rw [Ne, List.take_eq_nil_iff]
    exact fun h => h.elim (Nat.ne_of_gt hbefore) hne
  simp only [Decimal.pointed, String.toList_append, String.toList_ofList]
  rw [List.append_assoc]
  refine (isUnsigned_of_digits htake fun c hc => hdigits c (List.mem_of_mem_take hc)).append ?_
  intro c hc
  rcases List.mem_append.1 hc with hc | hc
  · rw [List.mem_singleton.1 hc]
    decide
  · exact isNumberChar_of_isDigit (hdigits c (List.mem_of_mem_drop hc))

theorem isUnsigned_positional (point : Int) :
    IsUnsigned (Decimal.positional digits point true).toList := by
  rw [Decimal.positional]
  split
  · have hpoint : IsUnsigned "0.".toList := ⟨'0', ['.'], rfl, rfl, List.all_eq_true.1 rfl⟩
    simp only [String.toList_append]
    exact (hpoint.append fun c => isNumberChar_of_mem_zeros).append fun c hc =>
      isNumberChar_of_isDigit (hdigits c hc)
  · split
    · simp only [String.toList_append, if_true]
      exact ((isUnsigned_of_digits hne hdigits).append fun c => isNumberChar_of_mem_zeros).append
        (List.all_eq_true.1 rfl)
    · exact isUnsigned_pointed hne hdigits (by omega)

theorem isUnsigned_scientific (point : Int) :
    IsUnsigned (Decimal.scientific digits point "").toList := by
  have hmantissa : IsUnsigned
      (if digits.length = 1 then digits else Decimal.pointed digits 1).toList := by
    split
    · exact isUnsigned_of_digits hne hdigits
    · exact isUnsigned_pointed hne hdigits Nat.one_pos
  simp only [Decimal.scientific, String.toList_append]
  refine ((hmantissa.append (List.all_eq_true.1 rfl)).append ?_).append fun c hc => ?_
  · split <;> exact List.all_eq_true.1 rfl
  · have hpower : (toString (point - 1).natAbs).toList = Nat.toDigits 10 (point - 1).natAbs :=
      Nat.toList_repr
    rw [hpower] at hc
    exact isNumberChar_of_isDigit (Json.isDigit_of_mem_toDigits hc)

end Layouts

/-- The text of a decimal, behind its sign. -/
theorem toList_stored (d : Decimal) :
    ∃ cs, (d.stored "").toList = d.sign.toList ++ cs ∧ IsUnsigned cs := by
  have htext : (toString d.digits).toList = Nat.toDigits 10 d.digits := Nat.toList_repr
  have hne : (toString d.digits).toList ≠ [] := by
    rw [htext]
    exact toDigits_ne_nil d.digits
  have hdigits : ∀ c ∈ (toString d.digits).toList, isDigit c = true := by
    rw [htext]
    exact fun c => Json.isDigit_of_mem_toDigits
  rw [Decimal.stored, String.toList_append]
  refine ⟨_, rfl, ?_⟩
  split
  · exact ⟨'0', ['.', '0'], rfl, rfl, List.all_eq_true.1 rfl⟩
  · simp only
    split
    · exact isUnsigned_positional hne hdigits _
    · exact isUnsigned_scientific hne hdigits _

/-! ## Plain scalars -/

theorem breaksPlain_of_number {cs : List Char} (h : ∀ c ∈ cs, isNumberChar c = true)
    (afterBlank : Bool) : breaksPlain afterBlank cs = false := by
  induction cs generalizing afterBlank with
  | nil => rfl
  | cons c cs ih =>
      obtain ⟨hc, hcs⟩ := List.forall_mem_cons.1 h
      obtain ⟨hlow, -, hcolon⟩ := toNat_of_isNumberChar hc
      have hne : (c == ':') = false ∧ (c == '#') = false := by
        constructor <;> rw [beq_eq_false_iff_ne] <;> rintro rfl
        · exact hcolon rfl
        · exact absurd hlow (by decide)
      rw [breaksPlain, hne.1, hne.2, ih hcs]
      rfl

theorem isPrintable_of_isNumberChar {c : Char} (h : isNumberChar c = true) :
    isPrintable c = true ∧ isBreak c = false := by
  obtain ⟨hlow, hhigh, -⟩ := toNat_of_isNumberChar h
  have hadmitted : isAdmitted c = true := by
    simp only [isAdmitted, Bool.or_eq_true, Bool.and_eq_true, decide_eq_true_eq]
    omega
  have hne : ∀ d : Char, (d.toNat < 45 ∨ 101 < d.toNat) → c ≠ d := by
    rintro d hd rfl
    omega
  simp only [isPrintable, hadmitted, isBreak, Bool.true_and, Bool.and_eq_true, bne_iff_ne,
    Bool.or_eq_false_iff, beq_eq_false_iff_ne]
  exact ⟨⟨hne _ (by decide), hne _ (by decide)⟩,
    ⟨hne _ (by decide), hne _ (by decide)⟩, hne _ (by decide)⟩

theorem ne_of_isDigit {c d : Char} (h : isDigit c = true) (hd : isDigit d = false) : c ≠ d := by
  rintro rfl
  rw [h] at hd
  cases hd

theorem startsPlain_digit {c : Char} (h : isDigit c = true) (cs : List Char) :
    startsPlain false (c :: cs) = true := by
  have hprint := isPrintable_of_isNumberChar (isNumberChar_of_isDigit h)
  have hblank : isBlank c = false := by
    simp only [isBlank, Bool.or_eq_false_iff, beq_eq_false_iff_ne]
    exact ⟨ne_of_isDigit h rfl, ne_of_isDigit h rfl⟩
  have hindicator : c ∉ indicators := fun hmem => by
    have hall : ∀ d ∈ indicators, (!isDigit d) = true := List.all_eq_true.1 rfl
    have hc := hall c hmem
    rw [h] at hc
    cases hc
  simp [startsPlain, ne_of_isDigit h (d := '-') rfl, ne_of_isDigit h (d := '?') rfl,
    ne_of_isDigit h (d := ':') rfl, hblank, hprint.2, hindicator]

section Numbers

variable {text : String} {negative : Bool} {cs : List Char}
  (htext : text.toList = (if negative then ['-'] else []) ++ cs) (h : IsUnsigned cs)
include htext h

/-- What a number is written as can stand without quotes. -/
theorem fitsPlain_of_unsigned : fitsPlain text = true := by
  obtain ⟨c, ds, rfl, hc, hds⟩ := h
  have hall : ∀ d ∈ text.toList, isNumberChar d = true := by
    rw [htext]
    intro d hd
    rcases List.mem_append.1 hd with hd | hd
    · cases negative with
      | true => rw [List.mem_singleton.1 hd]; rfl
      | false => cases hd
    · exact (List.mem_cons.1 hd).elim (fun h => h ▸ isNumberChar_of_isDigit hc) (hds d)
  have hlast : text.toList.getLast? ≠ some ' ' := fun h =>
    absurd (hall ' ' (List.mem_of_getLast? h)) (by decide)
  have hprint : (text.toList.all fun c => isPrintable c && !isBreak c) = true :=
    List.all_eq_true.2 fun d hd => by
      rw [(isPrintable_of_isNumberChar (hall d hd)).1, (isPrintable_of_isNumberChar (hall d hd)).2]
      rfl
  have hstarts : startsPlain false text.toList = true ∧ text.toList.take 3 ≠ ['-', '-', '-'] ∧
      text.toList.take 3 ≠ ['.', '.', '.'] := by
    rw [htext]
    cases negative with
    | true =>
        have hgap : atGap (c :: ds) = false := by
          obtain ⟨⟨hblank, hbreak, -⟩, -⟩ := startsPlain_cons (startsPlain_digit hc ds)
          rw [atGap, hblank, hbreak]
          rfl
        refine ⟨?_, fun h => ?_, fun h => ?_⟩
        · show (!atGap (c :: ds)) = true
          rw [hgap]
          rfl
        · exact ne_of_isDigit hc rfl (List.cons.inj (List.cons.inj h).2).1
        · exact absurd (List.cons.inj h).1 (by decide)
    | false =>
        refine ⟨startsPlain_digit hc ds, fun h => ?_, fun h => ?_⟩
        · exact ne_of_isDigit hc rfl (List.cons.inj h).1
        · exact ne_of_isDigit hc rfl (List.cons.inj h).1
  simp only [fitsPlain, hstarts.1, hprint, hlast, breaksPlain_of_number hall, hstarts.2, bne_iff_ne,
    Bool.and_eq_true, ne_eq, not_false_eq_true, Bool.not_false, and_self]

/-- A number is not named like one that is not finite. -/
theorem nonFinite?_of_unsigned : nonFinite? text = none := by
  obtain ⟨c, ds, rfl, hc, -⟩ := h
  have hne : ∀ name : String, (name.toList.head? = some '.' ∨ name.toList.head? = some '+' ∨
      name.toList.take 2 = ['-', '.']) → text ≠ name := by
    rintro name hname rfl
    rw [htext] at hname
    cases negative with
    | true =>
        rcases hname with h | h | h
        · exact absurd (Option.some.inj h) (by decide)
        · exact absurd (Option.some.inj h) (by decide)
        · exact ne_of_isDigit hc rfl (List.cons.inj (List.cons.inj h).2).1
    | false =>
        rcases hname with h | h | h
        · exact ne_of_isDigit hc rfl (Option.some.inj h)
        · exact ne_of_isDigit hc rfl (Option.some.inj h)
        · exact ne_of_isDigit hc rfl (List.cons.inj h).1
  have hmissing : ∀ names : List String, (∀ name ∈ names, name.toList.head? = some '.' ∨
      name.toList.head? = some '+' ∨ name.toList.take 2 = ['-', '.']) →
        names.contains text = false := fun names hnames =>
    Bool.eq_false_iff.2 fun hmem => hne text (hnames text (List.contains_iff_mem.1 hmem)) rfl
  rw [nonFinite?, hmissing, hmissing, hmissing]
  · rfl
  all_goals decide

end Numbers

theorem plain_stored (d : Decimal) :
    fitsPlain (d.stored "") = true ∧ nonFinite? (d.stored "") = none := by
  obtain ⟨cs, htext, hcs⟩ := toList_stored d
  have hsign : d.sign.toList = if d.negative then ['-'] else [] := by
    rw [Decimal.sign]
    split <;> rfl
  rw [hsign] at htext
  exact ⟨fitsPlain_of_unsigned htext hcs, nonFinite?_of_unsigned htext hcs⟩

theorem toList_toString (n : Nat) : (toString n).toList = Nat.toDigits 10 n := Nat.toList_repr

theorem plain_toString (n : Nat) : fitsPlain (toString n) = true := by
  have htext : (toString n).toList = (if false then ['-'] else []) ++ Nat.toDigits 10 n :=
    toList_toString n
  exact fitsPlain_of_unsigned htext
    (isUnsigned_of_digits (toDigits_ne_nil n) fun _ => Json.isDigit_of_mem_toDigits)

/-! ## Natural numbers -/

theorem numeral?_toDigits (n : Nat) : numeral? 10 (Nat.toDigits 10 n) = some n := by
  have hvalue : ∀ d < 10, hexValue? (Nat.digitChar d) = some d := by decide
  let step (n : Nat) (c : Char) : Option Nat :=
    (hexValue? c).bind fun d => if d < 10 then some (10 * n + d) else none
  have hstep (n d : Nat) (hd : d < 10) : step n (Nat.digitChar d) = some (10 * n + d) := by
    simp only [step, hvalue d hd, Option.bind_some, if_pos hd]
  have hfold : (Nat.toDigits 10 n).foldlM step 0 = some n := by
    induction n using Nat.strongRecOn with
    | ind n ih =>
        by_cases hn : n < 10
        · rw [Nat.toDigits_of_lt_base hn, List.foldlM_cons, hstep 0 n hn, Nat.mul_zero,
            Nat.zero_add]
          rfl
        · have hdiv : 10 * (n / 10) + n % 10 = n := by omega
          rw [Nat.toDigits_of_base_le (by decide) (Nat.le_of_not_lt hn), List.foldlM_append,
            ih (n / 10) (by omega)]
          show (step (n / 10) _).bind _ = _
          rw [hstep _ _ (Nat.mod_lt n (by decide)), hdiv]
          rfl
  have hempty : (Nat.toDigits 10 n).isEmpty = false :=
    List.isEmpty_eq_false_iff.2 (toDigits_ne_nil n)
  rw [numeral?, hempty]
  exact hfold

/-- Digits are no base and have no leading zero. -/
theorem magnitude?_toDigits (n : Nat) : magnitude? (Nat.toDigits 10 n) = some n := by
  have hnumeral := numeral?_toDigits n
  by_cases hn : n = 0
  · subst hn
    rfl
  · obtain ⟨c, cs, hdigits, hhead⟩ := Json.toDigits_head n
    rw [hdigits] at hnumeral ⊢
    rw [magnitude?.eq_def]
    split
    · next h => exact absurd (List.cons.inj h).1 (hhead hn)
    · next h => exact absurd (List.cons.inj h).1 (hhead hn)
    · next h => exact absurd (List.cons.inj h).1 (hhead hn)
    · next h => exact absurd (List.cons.inj h).1 (hhead hn)
    · exact hnumeral

theorem natural?_toString (n : Nat) : natural? (toString n) = some n := by
  obtain ⟨c, cs, hdigits, -⟩ := Json.toDigits_head n
  have hc : isDigit c = true := Json.isDigit_of_mem_toDigits (n := n) (by
    rw [hdigits]
    exact List.mem_cons_self)
  have hmagnitude := magnitude?_toDigits n
  rw [natural?, toList_toString]
  rw [hdigits] at hmagnitude ⊢
  split
  · next h => exact absurd (List.cons.inj h).1 (ne_of_isDigit hc rfl)
  · exact hmagnitude

/-! ## Numbers that are not finite -/

end Yaml

namespace Binary64

/-- A number that is not missing and not finite is one of two. -/
theorem infinite_cases {x : Float} (hx : (x == x) = true) (hfinite : x.isFinite = false) :
    x = -1.0 / 0.0 ∨ x = 1.0 / 0.0 := by
  obtain ⟨m⟩ := x
  have hpack := pack_unpack m
  cases hm : m.unpack with
  | infinity s =>
      rw [hm] at hpack
      subst hpack
      cases s with
      | positive => exact .inr (by decide +kernel)
      | negative => exact .inl (by decide +kernel)
  | notANumber =>
      rw [hm] at hpack
      subst hpack
      exact absurd hx (by decide +kernel)
  | finite s n e hn =>
      have hunpacked : m.unpack.isFinite = false := hfinite
      rw [hm] at hunpacked
      cases hunpacked
  | zero s =>
      rw [hm] at hpack
      subst hpack
      cases s <;> exact absurd hfinite (by decide +kernel)

end Binary64

namespace Yaml

/-- The decimal that a number is written as, if it is finite, is read as the number. -/
def RoundTrips (x : Float) : Prop :=
  ∀ d ∈ NumberText.shortest .toEven x,
    (Decimal.ofText? (d.stored "").toList).bind NumberText.nearest = some x

instance : DecidablePred RoundTrips := fun x =>
  inferInstanceAs (Decidable (∀ d ∈ NumberText.shortest .toEven x,
    (Decimal.ofText? (d.stored "").toList).bind NumberText.nearest = some x))

/-- A number that is not missing stands as a plain scalar that is read as this number. -/
theorem exists_ofNumber {x : Float} (hx : (x == x) = true) (h : RoundTrips x) :
    ∃ text, ofNumber x = .scalar .plain text ∧ fitsPlain text = true ∧ number? text = some x := by
  cases hshortest : (NumberText.shortest .toEven x : Option Decimal) with
  | some d =>
      obtain ⟨hfits, hname⟩ := plain_stored d
      refine ⟨d.stored "", by rw [ofNumber, hshortest], hfits, ?_⟩
      rw [number?, hname]
      exact h d hshortest
  | none =>
      have hfinite : x.isFinite = false := Bool.eq_false_iff.2 fun hfinite => by
        have hsome : (NumberText.shortest .toEven x : Option Decimal).isSome = true := by
          show (if x.isFinite then _ else _ : Option Decimal).isSome = true
          rw [if_pos hfinite]
          rfl
        rw [hshortest] at hsome
        cases hsome
      rcases Binary64.infinite_cases hx hfinite with rfl | rfl
      · exact ⟨"-.inf", congrArg (Yaml.scalar .plain) (by decide +kernel), by decide +kernel,
          by decide +kernel⟩
      · exact ⟨".inf", congrArg (Yaml.scalar .plain) (by decide +kernel), by decide +kernel,
          by decide +kernel⟩

end Yaml

end NoteRoll
