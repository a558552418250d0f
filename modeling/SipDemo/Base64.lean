import Mathlib.Data.Fin.Basic

/-!
# SipDemo.Base64

Bytes as digits to base 64.  Three bytes are four digits; what is left over, one
byte or two, is filled up with a symbol that is no digit.  The symbols are any
type, the alphabet any that can be read back (`Alphabet`):

```
decode (encode bytes) = some bytes
```

The module names nothing of the program.
-/

namespace Base64

/-- Sixty-four symbols that stand for digits, and one that does not. -/
structure Alphabet (σ : Type*) where
  symbol : Fin 64 → σ
  digit : σ → Option (Fin 64)
  pad : σ
  digit_symbol : ∀ d, digit (symbol d) = some d
  digit_pad : digit pad = none

namespace Alphabet

variable {σ : Type*} (a : Alphabet σ)

theorem symbol_ne_pad (d : Fin 64) : a.symbol d ≠ a.pad := by
  intro h
  have hdigit := a.digit_symbol d
  rw [h, a.digit_pad] at hdigit
  cases hdigit

/-- The last digit of a number. -/
def low (n : Nat) : σ := a.symbol (Fin.ofNat 64 n)

theorem digit_low (n : Nat) : a.digit (a.low n) = some (Fin.ofNat 64 n) := a.digit_symbol _

theorem low_ne_pad (n : Nat) : a.low n ≠ a.pad := a.symbol_ne_pad _

theorem low_congr {m n : Nat} (h : m % 64 = n % 64) : a.low m = a.low n :=
  congrArg a.symbol (Fin.ext h)

/-- Three bytes at a time, then the one or two that are left. -/
def encode : List UInt8 → List σ
  | [] => []
  | [x] => [a.low (x.toNat / 4), a.low (x.toNat * 16), a.pad, a.pad]
  | [x, y] =>
      [a.low (x.toNat / 4), a.low ((x.toNat * 256 + y.toNat) / 16), a.low (y.toNat * 4), a.pad]
  | x :: y :: z :: rest =>
      a.low (x.toNat / 4) :: a.low ((x.toNat * 256 + y.toNat) / 16) ::
        a.low ((y.toNat * 256 + z.toNat) / 64) :: a.low z.toNat :: encode rest

/-- What holds of every symbol holds of the text. -/
theorem forall_mem_encode {p : σ → Prop} (hpad : p a.pad) (hsymbol : ∀ d, p (a.symbol d))
    (bytes : List UInt8) : ∀ c ∈ a.encode bytes, p c := by
  have hlow : ∀ n, p (a.low n) := fun n => hsymbol _
  fun_induction encode a bytes with
  | case1 => exact List.forall_mem_nil p
  | case2 x => simp [hlow, hpad]
  | case3 x y => simp [hlow, hpad]
  | case4 x y z rest ih =>
      simp only [List.forall_mem_cons]
      exact ⟨hlow _, hlow _, hlow _, hlow _, ih⟩

/-- Groups of three bytes are written one after the other. -/
theorem encode_flatMap {ι : Type*} (l : List ι) (x y z : ι → UInt8) (rest : List UInt8) :
    a.encode (l.flatMap (fun i => [x i, y i, z i]) ++ rest) =
      l.flatMap (fun i => a.encode [x i, y i, z i]) ++ a.encode rest := by
  induction l with
  | nil => rfl
  | cons i l ih =>
      rw [List.flatMap_cons, List.flatMap_cons, List.append_assoc, List.append_assoc, ← ih]
      rfl

/-- The byte of which `p` has the first bits and `q` the last: those of `p` stand
`k` times as high, and what `q` holds below `l` is no part of it. -/
def join (k l : Nat) (p q : Fin 64) : UInt8 := UInt8.ofNat (p * k + q / l)

theorem join_eq {k l m n : Nat} {x : UInt8}
    (h : (m % 64 * k + n % 64 / l) % 256 = x.toNat) :
    join k l (Fin.ofNat 64 m) (Fin.ofNat 64 n) = x := by
  apply UInt8.toNat_inj.mp
  rw [← h, join, UInt8.toNat_ofNat']
  rfl

theorem join_first (x y : UInt8) :
    join 4 16 (Fin.ofNat 64 (x.toNat / 4)) (Fin.ofNat 64 ((x.toNat * 256 + y.toNat) / 16)) = x := by
  have hx := x.toNat_lt
  have hy := y.toNat_lt
  exact join_eq (by omega)

theorem join_second (x y z : UInt8) :
    join 16 4 (Fin.ofNat 64 ((x.toNat * 256 + y.toNat) / 16))
      (Fin.ofNat 64 ((y.toNat * 256 + z.toNat) / 64)) = y := by
  have hy := y.toNat_lt
  have hz := z.toNat_lt
  exact join_eq (by omega)

theorem join_third (y z : UInt8) :
    join 64 1 (Fin.ofNat 64 ((y.toNat * 256 + z.toNat) / 64)) (Fin.ofNat 64 z.toNat) = z := by
  have hz := z.toNat_lt
  exact join_eq (by omega)

/-- The last of two bytes, behind which nothing comes. -/
theorem join_last (x y : UInt8) :
    join 16 4 (Fin.ofNat 64 ((x.toNat * 256 + y.toNat) / 16)) (Fin.ofNat 64 (y.toNat * 4)) = y := by
  have hy := y.toNat_lt
  exact join_eq (by omega)

/-- A single byte, behind which nothing comes. -/
theorem join_single (x : UInt8) :
    join 4 16 (Fin.ofNat 64 (x.toNat / 4)) (Fin.ofNat 64 (x.toNat * 16)) = x := by
  have hx := x.toNat_lt
  exact join_eq (by omega)

variable [DecidableEq σ]

/-- Four symbols at a time; the last four may end with one or two that fill up. -/
def decode : List σ → Option (List UInt8)
  | [] => some []
  | p :: q :: r :: s :: rest =>
      (a.digit p).bind fun p => (a.digit q).bind fun q =>
        if r = a.pad ∧ s = a.pad ∧ rest = [] then some [join 4 16 p q]
        else (a.digit r).bind fun r =>
          if s = a.pad ∧ rest = [] then some [join 4 16 p q, join 16 4 q r]
          else (a.digit s).bind fun s => (decode rest).map fun bytes =>
            join 4 16 p q :: join 16 4 q r :: join 64 1 r s :: bytes
  | _ => none

/-- **Round trip.** -/
theorem decode_encode (bytes : List UInt8) : a.decode (a.encode bytes) = some bytes := by
  fun_induction encode a bytes with
  | case1 => rfl
  | case2 x => simp [decode, digit_low, join_single, -Fin.ofNat_eq_cast]
  | case3 x y => simp [decode, digit_low, low_ne_pad, join_first, join_last, -Fin.ofNat_eq_cast]
  | case4 x y z rest ih =>
      simp [decode, digit_low, low_ne_pad, join_first, join_second, join_third, ih,
        -Fin.ofNat_eq_cast]

end Alphabet

/-! ## the usual alphabet -/

/-- Capitals, small letters, numerals, `+` and `/`; `=` fills up. -/
def standard : Alphabet UInt8 where
  symbol d :=
    if d < 26 then UInt8.ofNat (d + 65)
    else if d < 52 then UInt8.ofNat (d + 71)
    else if d < 62 then UInt8.ofNat (d - 4)
    else if d = 62 then 43 else 47
  digit c :=
    if 65 ≤ c ∧ c ≤ 90 then some (Fin.ofNat 64 (c.toNat - 65))
    else if 97 ≤ c ∧ c ≤ 122 then some (Fin.ofNat 64 (c.toNat - 71))
    else if 48 ≤ c ∧ c ≤ 57 then some (Fin.ofNat 64 (c.toNat + 4))
    else if c = 43 then some 62
    else if c = 47 then some 63
    else none
  pad := 61
  digit_symbol := by decide
  digit_pad := by decide

end Base64
