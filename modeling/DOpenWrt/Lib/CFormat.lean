import DOpenWrt.Lib.CString

/-!
# Numbers in strings

What `printf` writes for a number and what `scanf` reads as one.
-/

namespace CString

def dash : UInt8 := UInt8.ofNat '-'.toNat

/-! ### Printing -/

/-- `%d` of a number that is not negative. -/
def decimal (n : Nat) : List UInt8 := (Nat.toDigits 10 n).map fun c => UInt8.ofNat c.toNat

/-- `"%lld"`. -/
def printInt (n : Int) : List UInt8 := (if n < 0 then [dash] else []) ++ decimal n.natAbs

/-- `"%0*d"`. -/
def printPadded (width : Nat) (n : Int) : List UInt8 :=
  let digits := decimal n.natAbs
  let sign := if n < 0 then [dash] else []
  sign ++ List.replicate (width - sign.length - digits.length) (UInt8.ofNat '0'.toNat) ++ digits

/-! ### Scanning -/

def isSign (c : UInt8) : Bool := c.toNat = '+'.toNat ∨ c.toNat = '-'.toNat

/-- The sign of a number, which counts to the width: whether it is negative, and the width and the string left. -/
def scanSign (width : Nat) : List UInt8 → Bool × Nat × List UInt8
  | c :: rest =>
    if c.toNat = '-'.toNat then (true, width - 1, rest)
    else if c.toNat = '+'.toNat then (false, width - 1, rest)
    else (false, width, c :: rest)
  | [] => (false, width, [])

/-- A conversion `%<width>d`, which skips blanks: the number and the rest. -/
def scanInt (width : Nat) (s : List UInt8) : Option (Int × List UInt8) :=
  let (negative, width, s) := scanSign width (s.dropWhile isspace)
  let digits := (s.take width).takeWhile isdigit
  if digits = [] then none
  else some (if negative then -digitsVal digits else digitsVal digits, s.drop digits.length)

/-- A character of the pattern other than a blank. -/
def scanLit (c : Char) : List UInt8 → Option (List UInt8)
  | d :: s => if d.toNat = c.toNat then some s else none
  | [] => none

/-- `%c`. -/
def scanChar : List UInt8 → Option (UInt8 × List UInt8)
  | c :: s => some (c, s)
  | [] => none

/-! ### Digits -/

section
variable {n w width : Nat} {ds rest : List UInt8}

theorem isdigit_of_isDigit {c : Char} (h : c.isDigit = true) : isdigit (UInt8.ofNat c.toNat) = true ∧
    (UInt8.ofNat c.toNat).toNat = c.toNat := by
  have hc : 48 ≤ c.toNat ∧ c.toNat ≤ 57 := by
    rw [Char.isDigit, Bool.and_eq_true, decide_eq_true_eq, decide_eq_true_eq] at h
    exact ⟨h.1, h.2⟩
  have hval : (UInt8.ofNat c.toNat).toNat = c.toNat := by
    rw [UInt8.toNat_ofNat']
    exact Nat.mod_eq_of_lt (by omega)
  refine ⟨?_, hval⟩
  rw [isdigit, decide_eq_true_eq, hval]
  exact hc

theorem isdigit_iff {c : UInt8} : isdigit c = true ↔ 48 ≤ c.toNat ∧ c.toNat ≤ 57 := decide_eq_true_iff

theorem isdigit_plain {c : UInt8} (h : isdigit c = true) : isspace c = false ∧ isSign c = false := by
  unfold isdigit at h
  unfold isspace isSign
  have h0 : '0'.toNat = 48 := rfl
  have h9 : '9'.toNat = 57 := rfl
  have hplus : '+'.toNat = 43 := rfl
  have hminus : '-'.toNat = 45 := rfl
  have := of_decide_eq_true h
  exact ⟨decide_eq_false (by omega), decide_eq_false (by omega)⟩

theorem digitsVal_append_digit (ds : List UInt8) (c : UInt8) :
    digitsVal (ds ++ [c]) = digitsVal ds * 10 + (c.toNat - '0'.toNat) := by
  rw [digitsVal, List.foldl_append]
  rfl

theorem digitsVal_lt {ds : List UInt8} (hds : ∀ c ∈ ds, isdigit c = true) : digitsVal ds < 10 ^ ds.length := by
  induction ds using List.reverseRecOn with
  | nil => exact Nat.one_pos
  | append_singleton ds c ih =>
    have hc := of_decide_eq_true (hds c (List.mem_append_right _ (List.mem_singleton.2 rfl)))
    have hrest := ih fun d hd => hds d (List.mem_append_left _ hd)
    have h0 : '0'.toNat = 48 := rfl
    have h9 : '9'.toNat = 57 := rfl
    rw [digitsVal_append_digit, List.length_append, List.length_singleton, Nat.pow_succ]
    omega

theorem digitsVal_zeros (k : Nat) (ds : List UInt8) :
    digitsVal (List.replicate k (UInt8.ofNat '0'.toNat) ++ ds) = digitsVal ds := by
  induction k with
  | zero => rfl
  | succ k ih => exact ih

/-- Digits are known by their number and their value. -/
theorem digits_ext {ds es : List UInt8} (hds : ∀ c ∈ ds, isdigit c = true) (hes : ∀ c ∈ es, isdigit c = true)
    (hlen : ds.length = es.length) (hval : digitsVal ds = digitsVal es) : ds = es := by
  induction ds using List.reverseRecOn generalizing es with
  | nil => exact (List.eq_nil_of_length_eq_zero hlen.symm).symm
  | append_singleton ds d ih =>
    rcases List.eq_nil_or_concat' es with rfl | ⟨es, e, rfl⟩
    · rw [List.length_append] at hlen
      cases hlen
    rw [digitsVal_append_digit, digitsVal_append_digit] at hval
    have hd := of_decide_eq_true (hds d (by simp))
    have he := of_decide_eq_true (hes e (by simp))
    have h0 : '0'.toNat = 48 := rfl
    have h9 : '9'.toNat = 57 := rfl
    have hlast : d = e := UInt8.toNat_inj.1 (by omega)
    rw [ih (fun c hc => hds c (List.mem_append_left _ hc)) (fun c hc => hes c (List.mem_append_left _ hc))
      (by simpa using hlen) (by omega), hlast]

/-! ### Numbers, printed and read back -/

theorem mem_decimal {n : Nat} {b : UInt8} (h : b ∈ decimal n) : isdigit b = true := by
  obtain ⟨c, hc, rfl⟩ := List.mem_map.1 h
  exact (isdigit_of_isDigit (Nat.isDigit_of_mem_toDigits (by decide) (by decide) hc)).1

theorem decimal_ne_nil (n : Nat) : decimal n ≠ [] := by
  rw [decimal, ne_eq, List.map_eq_nil_iff]
  exact Nat.toDigits_ne_nil

theorem digitsVal_decimal (n : Nat) : digitsVal (decimal n) = n := by
  have hfold : ∀ (cs : List Char) (acc : Nat), (∀ c ∈ cs, c.isDigit = true) →
      (cs.map fun c => UInt8.ofNat c.toNat).foldl (fun n c => n * 10 + (c.toNat - '0'.toNat)) acc =
        Nat.ofDigitChars 10 cs acc := by
    intro cs
    induction cs with
    | nil => exact fun acc _ => Nat.ofDigitChars_nil.symm
    | cons c cs ih =>
      intro acc hcs
      rw [List.map_cons, List.foldl_cons, Nat.ofDigitChars_cons, Nat.mul_comm,
        (isdigit_of_isDigit (hcs c List.mem_cons_self)).2]
      exact ih _ fun c' hc' => hcs c' (List.mem_cons_of_mem _ hc')
  rw [digitsVal, decimal, hfold _ 0 fun c hc => Nat.isDigit_of_mem_toDigits (by decide) (by decide) hc]
  exact Nat.ofDigitChars_ten_toDigits

/-- `strtol` reads back what `%d` printed, to the end. -/
theorem strtol_decimal {n : Nat} (h : n < 2 ^ 63) : strtol (decimal n) = some ((n : Int), []) := by
  obtain ⟨d, ds, hds⟩ := List.exists_cons_of_ne_nil (decimal_ne_nil n)
  have hd : 48 ≤ d.toNat ∧ d.toNat ≤ 57 := isdigit_iff.1 (mem_decimal (n := n) (by rw [hds]; exact List.mem_cons_self))
  have hspace : isspace d = false := by
    rw [isspace, decide_eq_false_iff_not]
    omega
  have htake : (d :: ds).takeWhile isdigit = d :: ds :=
    List.takeWhile_eq_self_iff.2 fun b hb => mem_decimal (n := n) (by rw [hds]; exact hb)
  have hdrop : (d :: ds).dropWhile isdigit = [] :=
    List.dropWhile_eq_nil_iff.2 fun b hb => mem_decimal (n := n) (by rw [hds]; exact hb)
  have hval : digitsVal (d :: ds) = n := by rw [← hds, digitsVal_decimal]
  have hminus : ¬ d.toNat = '-'.toNat := by
    have : '-'.toNat = 45 := rfl
    omega
  have hplus : ¬ d.toNat = '+'.toNat := by
    have : '+'.toNat = 43 := rfl
    omega
  have hrange : ¬ ((d :: ds) = [] ∨ (n : Int) < -2 ^ 63 ∨ (2 : Int) ^ 63 ≤ n) := by
    rintro (hnil | hlow | hhigh)
    · cases hnil
    · omega
    · omega
  rw [hds, strtol, List.dropWhile_cons_of_neg (by simp [hspace])]
  simp only [hminus, hplus, if_false, Bool.false_eq_true, htake, hdrop, hval, if_neg hrange]

theorem decimal_small (h : n < 10) : decimal n = [UInt8.ofNat (48 + n)] := by
  rw [decimal, Nat.toDigits_of_lt_base h]
  interval_cases n <;> rfl

theorem decimal_step (h : 10 ≤ n) : decimal n = decimal (n / 10) ++ [UInt8.ofNat (48 + n % 10)] := by
  rw [← decimal_small (show n % 10 < 10 by omega), decimal, decimal, decimal, Nat.toDigits_of_base_le (by decide) h,
    Nat.toDigits_of_lt_base (show n % 10 < 10 by omega), List.map_append]

theorem length_decimal_le_iff (hw : 0 < w) : (decimal n).length ≤ w ↔ n < 10 ^ w := by
  rw [decimal, List.length_map, Nat.length_toDigits_le_iff (by decide) hw]

theorem printPadded_nat (w n : Nat) :
    printPadded w (n : Int) = List.replicate (w - (decimal n).length) (UInt8.ofNat '0'.toNat) ++ decimal n := by
  rw [printPadded, if_neg (by omega), Int.natAbs_natCast]
  rfl

theorem isdigit_printPadded : ∀ c ∈ printPadded w (n : Int), isdigit c = true := by
  rw [printPadded_nat]
  exact List.forall_mem_append.2 ⟨fun c hc => by rw [List.eq_of_mem_replicate hc]; rfl, fun c hc => mem_decimal hc⟩

theorem length_printPadded (hw : 0 < w) (h : n < 10 ^ w) : (printPadded w (n : Int)).length = w := by
  have hlen := (length_decimal_le_iff hw).2 h
  rw [printPadded_nat, List.length_append, List.length_replicate]
  omega

theorem digitsVal_printPadded (w n : Nat) : digitsVal (printPadded w (n : Int)) = n := by
  rw [printPadded_nat, digitsVal_zeros, digitsVal_decimal]

/-! ### What is scanned -/

theorem scanSign_length (width : Nat) (s : List UInt8) : (scanSign width s).2.2.length ≤ s.length := by
  cases s with
  | nil => exact Nat.le_refl _
  | cons c s =>
    rw [scanSign]
    split_ifs <;> simp

theorem scanInt_length {width : Nat} {s rest : List UInt8} {n : Int} (h : scanInt width s = some (n, rest)) :
    rest.length ≤ s.length := by
  have hblank := (s.dropWhile_sublist isspace).length_le
  have hsign := scanSign_length width (s.dropWhile isspace)
  unfold scanInt at h
  dsimp only at h
  split at h
  · cases h
  · cases h
    rw [List.length_drop]
    exact (Nat.sub_le ..).trans (hsign.trans hblank)

theorem dropWhile_isspace_digits (hds : ∀ c ∈ ds, isdigit c = true) (hne : ds ≠ []) (rest : List UInt8) :
    (ds ++ rest).dropWhile isspace = ds ++ rest := by
  cases ds with
  | nil => exact absurd rfl hne
  | cons c ds =>
    rw [List.cons_append, List.dropWhile_cons_of_neg (by simp [(isdigit_plain (hds c List.mem_cons_self)).1])]

theorem scanSign_digits (hds : ∀ c ∈ ds, isdigit c = true) (hne : ds ≠ []) (width : Nat) (rest : List UInt8) :
    scanSign width (ds ++ rest) = (false, width, ds ++ rest) := by
  cases ds with
  | nil => exact absurd rfl hne
  | cons c ds =>
    have hsign := of_decide_eq_false (isdigit_plain (hds c List.mem_cons_self)).2
    rw [not_or] at hsign
    rw [List.cons_append, scanSign, if_neg hsign.2, if_neg hsign.1]

/-- The digits that the width takes in, or that no digit follows. -/
theorem takeWhile_digits (hds : ∀ c ∈ ds, isdigit c = true) (hlen : ds.length ≤ width)
    (hend : ds.length = width ∨ rest.head?.any isdigit = false) :
    ((ds ++ rest).take width).takeWhile isdigit = ds := by
  rw [List.take_append, List.take_of_length_le hlen, List.takeWhile_append_of_pos hds]
  rcases hend with heq | hhead
  · rw [heq, Nat.sub_self, List.take_zero, List.takeWhile_nil, List.append_nil]
  · have hnone : (rest.take (width - ds.length)).takeWhile isdigit = [] := by
      cases rest with
      | nil => rw [List.take_nil, List.takeWhile_nil]
      | cons c rest =>
        cases width - ds.length with
        | zero => rfl
        | succ k => rw [List.take_succ_cons, List.takeWhile_cons_of_neg (by simpa using hhead)]
    rw [hnone, List.append_nil]

theorem scanInt_digits (hds : ∀ c ∈ ds, isdigit c = true) (hne : ds ≠ []) (hlen : ds.length ≤ width)
    (hend : ds.length = width ∨ rest.head?.any isdigit = false) :
    scanInt width (ds ++ rest) = some ((digitsVal ds : Int), rest) := by
  unfold scanInt
  rw [dropWhile_isspace_digits hds hne, scanSign_digits hds hne]
  dsimp only
  rw [takeWhile_digits hds hlen hend, if_neg hne, List.drop_left' rfl]
  rfl

end

end CString
