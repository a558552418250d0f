import SipDemo.Bytes.Trim

/-!
# SipDemo.Bytes.Numerals

Numbers printed and read back: `std::to_string` and `operator<<` on one side,
`strtol`, `atoi` and `strtoull` on the other.  Each round trip is a fact about
the digits (`digitsValue_natStr`), one about where the scan stops
(`scanNumeral_digits`), and a range check.
-/

namespace SipDemo

/-! ## digits -/

/-- One or more decimal digits. -/
def isDecimal (s : Str) : Bool := !s.isEmpty && s.all isdigit

theorem isDecimal_iff {s : Str} : isDecimal s = true ↔ s ≠ [] ∧ ∀ d ∈ s, isdigit d = true := by
  simp [isDecimal, List.isEmpty_eq_false_iff]

/-- A decimal digit character is a digit byte, of the same value. -/
theorem digit_byte {c : Char} (h : c.isDigit = true) :
    isdigit (ch c) = true ∧ (ch c - ch '0').toNat = c.toNat - '0'.toNat := by
  obtain ⟨hlo, hhi⟩ : 48 ≤ c.toNat ∧ c.toNat ≤ 57 := by
    simpa [Char.isDigit, UInt32.le_iff_toNat_le] using h
  have hbyte : (ch c).toNat = c.toNat := by
    rw [ch, Nat.toUInt8_eq, UInt8.toNat_ofNat']
    omega
  constructor
  · rw [isdigit_iff, hbyte]
    exact ⟨hlo, hhi⟩
  · rw [UInt8.toNat_sub_of_le _ _ (UInt8.le_iff_toNat_le.mpr (by rw [hbyte]; exact hlo)), hbyte]
    rfl

theorem isdigit_of_mem_natStr {n : Nat} {c : UInt8} (h : c ∈ natStr n) : isdigit c = true := by
  obtain ⟨d, hd, rfl⟩ := List.mem_map.mp h
  exact (digit_byte (Nat.isDigit_of_mem_toDigits (by decide) (by decide) hd)).1

/-- A digit is no white space. -/
theorem isspace_of_isdigit {c : UInt8} (h : isdigit c = true) : isspace c = false := by
  rw [isdigit_iff] at h
  rw [← Bool.not_eq_true, isspace_iff]
  omega

theorem trimmed_natStr (n : Nat) : Trimmed (natStr n) := by
  have hws : ∀ c ∈ natStr n, ws c = false := fun c hc =>
    ws_of_not_isspace (isspace_of_isdigit (isdigit_of_mem_natStr hc))
  exact ⟨fun c hc => hws c (List.mem_of_mem_head? hc),
    fun c hc => hws c (List.mem_of_getLast? hc)⟩

theorem cr_not_mem_natStr (n : Nat) : 13 ∉ natStr n := fun hmem =>
  absurd (isdigit_of_mem_natStr hmem) (by decide)

theorem isdigit_of_mem_intStr {i : Int} {c : UInt8} (h : c ∈ intStr i) :
    c = ch '-' ∨ isdigit c = true := by
  rw [intStr] at h
  split at h
  · exact (List.mem_cons.mp h).imp_right isdigit_of_mem_natStr
  · exact .inr (isdigit_of_mem_natStr h)

theorem natStr_ne_nil (n : Nat) : natStr n ≠ [] := by
  simp [natStr, Nat.toDigits_ne_nil]

theorem intStr_natCast (n : Nat) : intStr n = natStr n := by
  rw [intStr, if_neg (by omega), Int.natAbs_natCast]

theorem length_natStr_le_iff {n k : Nat} (hk : 0 < k) : (natStr n).length ≤ k ↔ n < 10 ^ k := by
  rw [natStr, List.length_map]
  exact Nat.length_toDigits_le_iff (by decide) hk

/-- Three digits print the numbers from 100 to 999. -/
theorem length_natStr_eq_three_iff {n : Nat} : (natStr n).length = 3 ↔ 100 ≤ n ∧ n ≤ 999 := by
  have htwo := @length_natStr_le_iff n 2 (by decide)
  have hthree := @length_natStr_le_iff n 3 (by decide)
  omega

theorem intStr_three_digits_iff {i : Int} :
    (intStr i).length = 3 ∧ (intStr i).all isdigit = true ↔ 100 ≤ i ∧ i ≤ 999 := by
  by_cases hneg : i < 0
  · refine iff_of_false (fun h => ?_) (by omega)
    have hminus : isdigit (ch '-') = true := List.all_eq_true.mp h.2 _ (by simp [intStr, hneg])
    exact absurd hminus (by decide)
  · obtain ⟨n, rfl⟩ := Int.eq_ofNat_of_zero_le (Int.not_lt.mp hneg)
    have hdigits : (natStr n).all isdigit = true :=
      List.all_eq_true.mpr fun _ => isdigit_of_mem_natStr
    rw [intStr_natCast, length_natStr_eq_three_iff, and_iff_left hdigits]
    omega

theorem digitsValue_natStr (n : Nat) : digitsValue (natStr n) = n := by
  have hfold : ∀ (l : List Char) (acc : Nat), (∀ c ∈ l, c.isDigit = true) →
      (l.map ch).foldl (fun n d => 10 * n + (d - ch '0').toNat) acc =
        Nat.ofDigitChars 10 l acc := by
    intro l
    induction l with
    | nil => simp
    | cons c l ih =>
        intro acc h
        rw [List.forall_mem_cons] at h
        rw [List.map_cons, List.foldl_cons, Nat.ofDigitChars_cons, (digit_byte h.1).2, ih _ h.2]
  rw [digitsValue, natStr, hfold _ _ fun c hc =>
    Nat.isDigit_of_mem_toDigits (by decide) (by decide) hc]
  exact Nat.ofDigitChars_ten_toDigits

/-! ## hexadecimal digits -/

theorem hexStr_of_lt {n : Nat} (h : n < 16) : hexStr n = [ch n.digitChar] := by
  rw [hexStr, Nat.toDigits_of_lt_base h, List.map_singleton]

theorem hexStr_of_ge {n : Nat} (h : 16 ≤ n) :
    hexStr n = hexStr (n / 16) ++ [ch (n % 16).digitChar] := by
  rw [hexStr, Nat.toDigits_of_base_le (by decide) h, List.map_append, List.map_singleton, hexStr]

/-- Induction along the digits, the last one first. -/
theorem hexStr_induction {motive : Nat → Prop} (one : ∀ n < 16, motive n)
    (snoc : ∀ n, 16 ≤ n → motive (n / 16) → motive n) (n : Nat) : motive n := by
  induction n using Nat.strongRecOn with
  | ind n ih =>
      by_cases hn : n < 16
      · exact one n hn
      · exact snoc n (Nat.not_lt.mp hn) (ih (n / 16) (by omega))

theorem hexStr_ne_nil (n : Nat) : hexStr n ≠ [] := by
  simp [hexStr, Nat.toDigits_ne_nil]

/-- A hexadecimal digit is none of the control characters. -/
theorem ge_of_mem_hexStr {n : Nat} {c : UInt8} (h : c ∈ hexStr n) : 48 ≤ c.toNat := by
  have hdigits : ∀ k < 16, 48 ≤ (ch k.digitChar).toNat := by decide
  induction n using hexStr_induction with
  | one n hn =>
      rw [hexStr_of_lt hn, List.mem_singleton] at h
      rw [h]
      exact hdigits n hn
  | snoc n hn ih =>
      rw [hexStr_of_ge hn, List.mem_append, List.mem_singleton] at h
      cases h with
      | inl hfront => exact ih hfront
      | inr hlast =>
          rw [hlast]
          exact hdigits _ (Nat.mod_lt _ (by decide))

theorem hexDigit_inj {d e : Nat} (hd : d < 16) (he : e < 16)
    (h : ch d.digitChar = ch e.digitChar) : d = e := by
  have hall : ∀ d < 16, ∀ e < 16, ch d.digitChar = ch e.digitChar → d = e := by decide
  exact hall d hd e he h

/-- The last digit, and what stands before it. -/
theorem hexStr_eq_snoc {b d : Nat} {front : Str} (hd : d < 16)
    (h : hexStr b = front ++ [ch d.digitChar]) :
    b % 16 = d ∧ (b < 16 ∧ front = [] ∨ 16 ≤ b ∧ front = hexStr (b / 16)) := by
  by_cases hb : b < 16
  · rw [hexStr_of_lt hb, ← List.nil_append [ch b.digitChar]] at h
    obtain ⟨hfront, hlast⟩ := List.append_inj' h rfl
    have hdigit := hexDigit_inj hb hd (List.singleton_inj.mp hlast)
    exact ⟨by omega, .inl ⟨hb, hfront.symm⟩⟩
  · rw [hexStr_of_ge (Nat.not_lt.mp hb)] at h
    obtain ⟨hfront, hlast⟩ := List.append_inj' h rfl
    have hdigit := hexDigit_inj (Nat.mod_lt b (by decide)) hd (List.singleton_inj.mp hlast)
    exact ⟨hdigit, .inr ⟨Nat.not_lt.mp hb, hfront.symm⟩⟩

/-- Digits written one after the other. -/
theorem hexStr_append {q : Nat} (hq : 0 < q) (a : Nat) :
    hexStr (q * 16 ^ (hexStr a).length + a) = hexStr q ++ hexStr a := by
  induction a using hexStr_induction with
  | one a ha =>
      have hdiv : (q * 16 + a) / 16 = q := by omega
      have hmod : (q * 16 + a) % 16 = a := by omega
      rw [hexStr_of_lt ha, List.length_singleton, Nat.pow_one, hexStr_of_ge (by omega), hdiv, hmod]
  | snoc a ha ih =>
      rw [hexStr_of_ge ha, List.length_append, List.length_singleton, ← List.append_assoc, ← ih,
        Nat.pow_succ, ← Nat.mul_assoc]
      generalize q * 16 ^ (hexStr (a / 16)).length = front
      have hdiv : (front * 16 + a) / 16 = front + a / 16 := by omega
      have hmod : (front * 16 + a) % 16 = a % 16 := by omega
      rw [hexStr_of_ge (by omega), hdiv, hmod]

/-- What ends in the digits of `a` is `a`, or has the digits of a positive
number before them. -/
theorem hexStr_eq_append {a b : Nat} {w : Str} (h : hexStr b = w ++ hexStr a) :
    (w = [] ∧ b = a) ∨ ∃ q, 0 < q ∧ w = hexStr q ∧ b = q * 16 ^ (hexStr a).length + a := by
  induction a using hexStr_induction generalizing b with
  | one a ha =>
      rw [hexStr_of_lt ha] at h ⊢
      obtain ⟨hlast, ⟨hb, hw⟩ | ⟨hb, hw⟩⟩ := hexStr_eq_snoc ha h
      · exact .inl ⟨hw, by omega⟩
      · refine .inr ⟨b / 16, by omega, hw, ?_⟩
        rw [List.length_singleton]
        omega
  | snoc a ha ih =>
      rw [hexStr_of_ge ha, ← List.append_assoc] at h
      obtain ⟨hlast, ⟨hb, hfront⟩ | ⟨hb, hfront⟩⟩ := hexStr_eq_snoc (Nat.mod_lt a (by decide)) h
      · simp [hexStr_ne_nil] at hfront
      · rw [hexStr_of_ge ha, List.length_append, List.length_singleton, Nat.pow_succ]
        rcases ih hfront.symm with ⟨hw, hdiv⟩ | ⟨q, hq, hw, hdiv⟩
        · exact .inl ⟨hw, by omega⟩
        · refine .inr ⟨q, hq, hw, ?_⟩
          rw [← Nat.mul_assoc]
          omega

theorem hexStr_inj {a b : Nat} (h : hexStr a = hexStr b) : a = b := by
  have hend : hexStr a = [] ++ hexStr b := h
  rcases hexStr_eq_append hend with ⟨-, hab⟩ | ⟨q, -, hw, -⟩
  · exact hab
  · exact absurd hw.symm (hexStr_ne_nil q)

theorem hexStr_eq_append_iff {a b : Nat} {w : Str} (hw : w ≠ []) :
    hexStr b = w ++ hexStr a ↔
      ∃ q, 0 < q ∧ w = hexStr q ∧ b = q * 16 ^ (hexStr a).length + a := by
  constructor
  · exact fun h => (hexStr_eq_append h).resolve_left fun hnil => hw hnil.1
  · rintro ⟨q, hq, rfl, rfl⟩
    exact hexStr_append hq a

/-! ## the scan -/

/-- Up to the first byte out of a class. -/
theorem takeWhile_dropWhile_append {p : UInt8 → Bool} {front rest : Str}
    (hfront : ∀ c ∈ front, p c = true) (hrest : ∀ c ∈ rest.head?, p c = false) :
    (front ++ rest).takeWhile p = front ∧ (front ++ rest).dropWhile p = rest := by
  have hstop : rest.takeWhile p = [] ∧ rest.dropWhile p = rest := by
    cases rest with
    | nil => exact ⟨rfl, rfl⟩
    | cons c rest =>
        have hc : ¬p c = true := by simp [hrest c rfl]
        exact ⟨List.takeWhile_cons_of_neg hc, List.dropWhile_cons_of_neg hc⟩
  rw [List.takeWhile_append_of_pos hfront, List.dropWhile_append_of_pos hfront, hstop.1, hstop.2,
    List.append_nil]
  exact ⟨rfl, rfl⟩

theorem head?_dropWhile_eq_false (p : UInt8 → Bool) (s : Str) :
    ∀ c ∈ (s.dropWhile p).head?, p c = false := by
  intro c hc
  have h := List.head?_dropWhile_not p s
  rw [Option.mem_def] at hc
  rw [hc] at h
  simpa using h

/-- A run of digits in front is read to its end. -/
theorem scanNumeral_front {ds rest : Str} (hds : ∀ d ∈ ds, isdigit d = true) (hne : ds ≠ [])
    (hrest : ∀ c ∈ rest.head?, isdigit c = false) :
    scanNumeral (ds ++ rest) = some (false, digitsValue ds) := by
  obtain ⟨d, ds, rfl⟩ := List.exists_cons_of_ne_nil hne
  have hd := isdigit_iff.mp (hds d List.mem_cons_self)
  have hspace : isspace d ≠ true := by
    rw [ne_eq, isspace_iff]
    omega
  have hminus : d ≠ ch '-' := by
    rintro rfl
    exact absurd hd (by decide)
  have hplus : d ≠ ch '+' := by
    rintro rfl
    exact absurd hd (by decide)
  have hrun := (takeWhile_dropWhile_append hds hrest).1
  rw [List.cons_append] at hrun
  simp only [scanNumeral, List.cons_append, List.dropWhile_cons_of_neg hspace, if_neg hminus,
    if_neg hplus, hrun]

theorem scanNumeral_digits {ds : Str} (hds : ∀ d ∈ ds, isdigit d = true) (hne : ds ≠ []) :
    scanNumeral ds = some (false, digitsValue ds) := by
  have h := @scanNumeral_front ds [] hds hne (by simp)
  rwa [List.append_nil] at h

/-- A sign in front of a numeral, and whether it is a minus. -/
inductive Sign : Str → Bool → Prop
  | none : Sign [] false
  | plus : Sign [ch '+'] false
  | minus : Sign [ch '-'] true

/-- White space, a sign or none, digits, and what does not go on with a digit. -/
def ScansTo (s : Str) (neg : Bool) (n : Nat) : Prop :=
  ∃ space sign ds tail, s = space ++ sign ++ ds ++ tail ∧ (∀ c ∈ space, isspace c = true) ∧
    Sign sign neg ∧ isDecimal ds = true ∧ (∀ c ∈ tail.head?, isdigit c = false) ∧
    n = digitsValue ds

/-- White space in front does not matter. -/
theorem scanNumeral_space {space : Str} (h : ∀ c ∈ space, isspace c = true) (t : Str) :
    scanNumeral (space ++ t) = scanNumeral t := by
  unfold scanNumeral
  rw [List.dropWhile_append_of_pos h]

/-- After a sign, the digits. -/
theorem scanNumeral_sign {sign ds tail : Str} {neg : Bool} (hsign : Sign sign neg)
    (hds : isDecimal ds = true) (htail : ∀ c ∈ tail.head?, isdigit c = false) :
    scanNumeral (sign ++ (ds ++ tail)) = some (neg, digitsValue ds) := by
  obtain ⟨hne, hdigits⟩ := isDecimal_iff.mp hds
  have hrun := (takeWhile_dropWhile_append hdigits htail).1
  cases hsign with
  | none => exact scanNumeral_front hdigits hne htail
  | plus =>
      have hspace : isspace (ch '+') ≠ true := by decide
      have hminus : ch '+' ≠ ch '-' := by decide
      simp only [scanNumeral, List.singleton_append, List.dropWhile_cons_of_neg hspace,
        if_neg hminus, if_true, hrun]
  | minus =>
      have hspace : isspace (ch '-') ≠ true := by decide
      simp only [scanNumeral, List.singleton_append, List.dropWhile_cons_of_neg hspace, if_true,
        hrun]

theorem scanNumeral_minus {ds : Str} (hds : ∀ d ∈ ds, isdigit d = true) (hne : ds ≠ []) :
    scanNumeral (ch '-' :: ds) = some (true, digitsValue ds) := by
  have h := @scanNumeral_sign _ ds [] _ .minus (isDecimal_iff.mpr ⟨hne, hds⟩) (by simp)
  rwa [List.append_nil] at h

theorem scansTo_of_run {s sign t : Str} {neg : Bool} (ht : s.dropWhile isspace = sign ++ t)
    (hsign : Sign sign neg) (hne : t.takeWhile isdigit ≠ []) :
    ScansTo s neg (digitsValue (t.takeWhile isdigit)) := by
  refine ⟨s.takeWhile isspace, sign, t.takeWhile isdigit, t.dropWhile isdigit, ?_,
    fun c hc => List.mem_takeWhile_imp hc, hsign,
    isDecimal_iff.mpr ⟨hne, fun d hd => List.mem_takeWhile_imp hd⟩,
    head?_dropWhile_eq_false isdigit t, rfl⟩
  rw [List.append_assoc, List.takeWhile_append_dropWhile, List.append_assoc, ← ht,
    List.takeWhile_append_dropWhile]

/-- **What the scan reads**, of any text. -/
theorem scanNumeral_eq_some_iff {s : Str} {neg : Bool} {n : Nat} :
    scanNumeral s = some (neg, n) ↔ ScansTo s neg n := by
  constructor
  · intro h
    unfold scanNumeral at h
    cases hskip : s.dropWhile isspace with
    | nil => simp [hskip] at h
    | cons c rest =>
        by_cases hminus : c = ch '-'
        · subst hminus
          have hrun := @scansTo_of_run s [ch '-'] rest true hskip .minus
          grind
        · by_cases hplus : c = ch '+'
          · subst hplus
            have hrun := @scansTo_of_run s [ch '+'] rest false hskip .plus
            grind
          · have hrun := @scansTo_of_run s [] (c :: rest) false hskip .none
            grind
  · rintro ⟨space, sign, ds, tail, rfl, hspace, hsign, hds, htail, rfl⟩
    rw [List.append_assoc, List.append_assoc, scanNumeral_space hspace,
      scanNumeral_sign hsign hds htail]

theorem scanNumeral_natStr (n : Nat) : scanNumeral (natStr n) = some (false, n) := by
  rw [scanNumeral_digits (fun _ => isdigit_of_mem_natStr) (natStr_ne_nil n), digitsValue_natStr]

theorem scanNumeral_intStr (i : Int) :
    scanNumeral (intStr i) = some (decide (i < 0), i.natAbs) := by
  by_cases hneg : i < 0
  · rw [intStr, if_pos hneg,
      scanNumeral_minus (fun _ => isdigit_of_mem_natStr) (natStr_ne_nil _), digitsValue_natStr]
    simp [hneg]
  · rw [intStr, if_neg hneg, scanNumeral_natStr]
    simp [hneg]

/-! ## round trips -/

/-- The size of a string is read back. -/
theorem strtol_natStr {n : Nat} (h : n ≤ maxSize) : strtol (natStr n) = some (n : Int) := by
  rw [strtol, scanNumeral_natStr]
  simp only [Option.map_some, Bool.false_eq_true, if_false, Option.some.injEq]
  have hmin : longMin ≤ 0 := by decide
  have hmax : (n : Int) ≤ longMax := by
    unfold maxSize at h
    unfold longMax
    omega
  omega

/-- So is an `int`. -/
theorem atoi_intStr {i : Int} (hlo : -2 ^ 31 ≤ i) (hhi : i < 2 ^ 31) : atoi (intStr i) = i := by
  have hvalue : strtol (intStr i) = some i := by
    rw [strtol, scanNumeral_intStr, Option.map_some]
    simp only [longMin, longMax, decide_eq_true_eq]
    split
    · next hneg => congr 1; omega
    · next hneg => congr 1; omega
  rw [atoi, hvalue, Option.getD_some]
  exact Int.bmod_eq_of_le (by omega) (by omega)

theorem atoi_natStr {n : Nat} (h : n < 2 ^ 31) : atoi (natStr n) = n := by
  rw [← intStr_natCast, atoi_intStr (by omega) (by omega)]

/-- And any 64-bit number. -/
theorem strtoull_natStr (n : UInt64) : strtoull (natStr n.toNat) = n := by
  rw [strtoull, scanNumeral_natStr]
  simp only [Bool.false_eq_true, if_false]
  rw [if_neg (not_le.mpr n.toNat_lt), UInt64.ofNat_toNat]

/-- Digits in front are read, whatever follows them. -/
theorem atoi_front {ds rest : Str} (hds : ∀ d ∈ ds, isdigit d = true) (hne : ds ≠ [])
    (hrest : ∀ c ∈ rest.head?, isdigit c = false) (hsmall : digitsValue ds < 2 ^ 31) :
    atoi (ds ++ rest) = digitsValue ds := by
  have hvalue : strtol (ds ++ rest) = some (digitsValue ds : Int) := by
    rw [strtol, scanNumeral_front hds hne hrest]
    simp only [Option.map_some, Bool.false_eq_true, if_false, longMin, longMax]
    congr 1
    omega
  rw [atoi, hvalue, Option.getD_some]
  exact Int.bmod_eq_of_le (by omega) (by omega)

theorem atoi_digits {ds : Str} (hds : ∀ d ∈ ds, isdigit d = true) (hne : ds ≠ [])
    (hsmall : digitsValue ds < 2 ^ 31) : atoi ds = digitsValue ds := by
  have h := @atoi_front ds [] hds hne (by simp) hsmall
  rwa [List.append_nil] at h

/-- Three digits read as a number below 1000, and as one from 100 on unless the
first is a zero. -/
theorem atoi_three_digits {code : Str} (hlength : code.length = 3)
    (hdigits : ∀ c ∈ code, isdigit c = true) :
    atoi code ≤ 999 ∧ (100 ≤ atoi code ↔ code.head? ≠ some (ch '0')) := by
  match code, hlength with
  | [a, b, c], _ =>
      have hdigit : ∀ d, isdigit d = true → (d - ch '0').toNat + 48 = d.toNat ∧ d.toNat ≤ 57 := by
        intro d hd
        obtain ⟨hlo, hhi⟩ := isdigit_iff.mp hd
        have hsub := UInt8.toNat_sub_of_le d (ch '0') (UInt8.le_iff_toNat_le.mpr hlo)
        have hzero : (ch '0').toNat = 48 := rfl
        omega
      have ha := hdigit a (hdigits a (by simp))
      have hb := hdigit b (hdigits b (by simp))
      have hc := hdigit c (hdigits c (by simp))
      have hvalue : digitsValue [a, b, c] =
          10 * (10 * (a - ch '0').toNat + (b - ch '0').toNat) + (c - ch '0').toNat := by
        simp [digitsValue]
      have hhead : [a, b, c].head? ≠ some (ch '0') ↔ a.toNat ≠ 48 := by
        simp [← UInt8.toNat_inj, ch]
      rw [atoi_digits hdigits (List.cons_ne_nil _ _) (by omega), hhead]
      omega

end SipDemo
