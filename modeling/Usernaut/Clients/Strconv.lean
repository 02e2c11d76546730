import Mathlib.Tactic.IntervalCases
import Usernaut.Basic

/-!
# `strconv.Atoi`

The GitLab client tells a user id from a username with `strconv.Atoi`, and prints the ids it
returns with `fmt.Sprintf("%d", ...)`. `atoi` is Go's `Atoi` on a 64-bit platform. An input of 1
to 18 bytes takes the fast path: an optional sign, then decimal digits only. Any other input goes
to `ParseInt(s, 10, 0)`, whose digit loop (`ParseUint`) stops at the first byte that is not a
digit, with a syntax error, and at the first digit that overflows `uint64`, with a range error,
whichever comes first; `ParseInt` then checks the `int64` range. A byte that is not an ASCII
digit is never part of a numeral, so the loops read characters where Go reads bytes.

The decimal form of every `int` from `0` up parses back to it (`atoi_toString`).

## Main definitions

* `Strconv.NumErr`: `strconv.ErrSyntax` and `strconv.ErrRange`.
* `Strconv.atoi`: `strconv.Atoi`.

## Main results

* `Strconv.value_toDigits`: the digits of `Nat.repr n` read back as `n`.
* `Strconv.atoi_toString`: `Atoi(fmt.Sprintf("%d", n)) = n` for every `n < 2⁶³`.
-/

namespace Usernaut

namespace Strconv

/-- The error of a `*strconv.NumError`. -/
inductive NumErr
  /-- `strconv.ErrSyntax`. -/
  | errSyntax
  /-- `strconv.ErrRange`. -/
  | errRange
  deriving DecidableEq, Repr

/-- `NumErr.Error()`. -/
def NumErr.text : NumErr → String
  | .errSyntax => "invalid syntax"
  | .errRange => "value out of range"

/-- `(&NumError{"Atoi", num, err}).Error()`. The quotes stand for `strconv.Quote`, which also
escapes quotes, backslashes and unprintable characters. -/
def NumErr.message (num : String) (err : NumErr) : String :=
  "strconv.Atoi: parsing \"" ++ num ++ "\": " ++ err.text

/-- The value of a decimal digit: `ch - '0'`. -/
def digitVal (c : Char) : Nat := c.toNat - '0'.toNat

/-- The value the digits `ds` add to `n`: `n = n*10 + int(ch)` for each digit. -/
def value (n : Nat) (ds : List Char) : Nat := ds.foldl (fun n c => n * 10 + digitVal c) n

/-- A leading `-` or `+` is taken off and remembered. -/
def splitSign : List Char → Bool × List Char
  | '-' :: rest => (true, rest)
  | '+' :: rest => (false, rest)
  | s => (false, s)

/-- The fast path's digit loop: a syntax error at the first character that is not a digit. -/
def fastDigits : List Char → Nat → Except NumErr Nat
  | [], n => .ok n
  | c :: cs, n => if c.isDigit then fastDigits cs (n * 10 + digitVal c) else .error .errSyntax

/-- `Atoi`'s fast path, for inputs of 1 to 18 bytes. -/
def atoiFast (s : List Char) : Except NumErr Int :=
  let (neg, digits) := splitSign s
  if digits = [] then .error .errSyntax
  else (fastDigits digits 0).map fun n => if neg then -(n : Int) else n

/-- `ParseUint`'s `cutoff`: the least `n` with `n * 10 > maxUint64`. -/
def cutoff : Nat := (2 ^ 64 - 1) / 10 + 1

/-- `ParseUint`'s loop in base 10 with 64 bits. -/
def parseUintLoop : List Char → Nat → Except NumErr Nat
  | [], n => .ok n
  | c :: cs, n =>
    if !c.isDigit then .error .errSyntax
    else if cutoff ≤ n then .error .errRange
    else if 2 ^ 64 - 1 < n * 10 + digitVal c then .error .errRange
    else parseUintLoop cs (n * 10 + digitVal c)

/-- `ParseUint(s, 10, 64)`. -/
def parseUint (s : List Char) : Except NumErr Nat :=
  if s = [] then .error .errSyntax else parseUintLoop s 0

/-- `ParseInt(s, 10, 0)` with a 64-bit `int`: a range error from `ParseUint` stays one. -/
def parseInt (s : List Char) : Except NumErr Int :=
  if s = [] then .error .errSyntax
  else
    let (neg, digits) := splitSign s
    match parseUint digits with
    | .error err => .error err
    | .ok un =>
      if !neg ∧ 2 ^ 63 ≤ un ∨ neg ∧ 2 ^ 63 < un then .error .errRange
      else .ok (if neg then -(un : Int) else un)

/-- `strconv.Atoi` on a 64-bit platform. -/
def atoi (s : String) : Except NumErr Int :=
  if 0 < s.utf8ByteSize ∧ s.utf8ByteSize < 19 then atoiFast s.data else parseInt s.data

example : atoi "-42" = .ok (-42) ∧ atoi "4x" = .error .errSyntax ∧
    atoi "99999999999999999999x" = .error .errRange := by decide

/-! ## Printing and parsing back -/

theorem digitChar_isDigit {d : Nat} (h : d < 10) : (Nat.digitChar d).isDigit = true := by
  interval_cases d <;> rfl

theorem digitVal_digitChar {d : Nat} (h : d < 10) : digitVal (Nat.digitChar d) = d := by
  interval_cases d <;> rfl

/-- One step of `toDigitsCore`, as it is defined. -/
theorem toDigitsCore_succ_eq (fuel n : Nat) (ds : List Char) :
    Nat.toDigitsCore 10 (fuel + 1) n ds =
      if n / 10 = 0 then Nat.digitChar (n % 10) :: ds
      else Nat.toDigitsCore 10 fuel (n / 10) (Nat.digitChar (n % 10) :: ds) := rfl

/-- `toDigitsCore` puts each digit in front of what it has built. -/
theorem toDigitsCore_append (fuel n : Nat) (ds : List Char) :
    Nat.toDigitsCore 10 fuel n ds = Nat.toDigitsCore 10 fuel n [] ++ ds := by
  induction fuel generalizing n ds with
  | zero => rfl
  | succ fuel ih =>
    simp only [toDigitsCore_succ_eq]
    split_ifs
    · rfl
    · rw [ih _ (_ :: ds), ih _ [_]]
      simp

/-- One step of `toDigitsCore`: the last digit comes off the end. -/
theorem toDigitsCore_succ (fuel n : Nat) :
    Nat.toDigitsCore 10 (fuel + 1) n [] =
      (if n / 10 = 0 then [] else Nat.toDigitsCore 10 fuel (n / 10) []) ++
        [Nat.digitChar (n % 10)] := by
  simp only [toDigitsCore_succ_eq]
  split_ifs
  · rfl
  · exact toDigitsCore_append _ _ _

theorem value_append_singleton (n : Nat) (ds : List Char) (c : Char) :
    value n (ds ++ [c]) = value n ds * 10 + digitVal c := by
  simp [value]

/-- With more fuel than the number, the digits `toDigitsCore` builds are ASCII digits and read
back as the number. -/
theorem value_toDigitsCore : ∀ (fuel n : Nat), n < fuel →
    (∀ c ∈ Nat.toDigitsCore 10 fuel n [], c.isDigit = true) ∧
      value 0 (Nat.toDigitsCore 10 fuel n []) = n
  | 0, _, h => absurd h (Nat.not_lt_zero _)
  | fuel + 1, n, h => by
    have hlast := Nat.mod_lt n (by omega : 10 > 0)
    rw [toDigitsCore_succ]
    split_ifs with h0
    · refine ⟨fun c hc => ?_, ?_⟩
      · rw [List.nil_append, List.mem_singleton] at hc
        rw [hc]
        exact digitChar_isDigit hlast
      · simp only [value, List.nil_append, List.foldl_cons, List.foldl_nil, zero_mul, zero_add,
          digitVal_digitChar hlast]
        omega
    · obtain ⟨hdigits, hvalue⟩ := value_toDigitsCore fuel (n / 10) (by omega)
      refine ⟨fun c hc => ?_, ?_⟩
      · rcases List.mem_append.mp hc with hc | hc
        · exact hdigits c hc
        · rw [List.mem_singleton.mp hc]
          exact digitChar_isDigit hlast
      · rw [value_append_singleton, hvalue, digitVal_digitChar hlast]
        omega

/-- The decimal digits of `n` are ASCII digits, and read back as `n`. -/
theorem value_toDigits (n : Nat) :
    (∀ c ∈ Nat.toDigits 10 n, c.isDigit = true) ∧ value 0 (Nat.toDigits 10 n) = n :=
  value_toDigitsCore (n + 1) n (by omega)

/-- The fast path's loop reads the value of a run of digits. -/
theorem fastDigits_eq : ∀ (ds : List Char) (n : Nat), (∀ c ∈ ds, c.isDigit = true) →
    fastDigits ds n = .ok (value n ds)
  | [], _, _ => rfl
  | c :: cs, n, h => by
    simp only [fastDigits, h c (List.mem_cons_self _ _), if_true]
    exact fastDigits_eq cs _ fun c hc => h c (List.mem_cons_of_mem _ hc)

/-- A run of digits only grows the value it starts from. -/
theorem le_value : ∀ (ds : List Char) (n : Nat), n ≤ value n ds
  | [], _ => le_rfl
  | c :: cs, n => le_trans (show n ≤ n * 10 + digitVal c by omega) (le_value cs _)

/-- `ParseUint`'s loop reads the value of a run of digits below `2⁶³`: no step overflows. -/
theorem parseUintLoop_eq : ∀ (ds : List Char) (n : Nat), (∀ c ∈ ds, c.isDigit = true) →
    value n ds < 2 ^ 63 → parseUintLoop ds n = .ok (value n ds)
  | [], _, _, _ => rfl
  | c :: cs, n, h, hlt => by
    have hstep : n * 10 + digitVal c < 2 ^ 63 := lt_of_le_of_lt (le_value cs _) hlt
    simp only [parseUintLoop, h c (List.mem_cons_self _ _), Bool.not_true, cutoff,
      Bool.false_eq_true, if_false]
    rw [if_neg (by omega), if_neg (by omega)]
    exact parseUintLoop_eq cs _ (fun c hc => h c (List.mem_cons_of_mem _ hc)) hlt

/-- **`Atoi` reads back what `%d` prints**, for every `int` from `0` up. -/
theorem atoi_toString {n : Nat} (h : n < 2 ^ 63) : atoi (toString n) = .ok n := by
  obtain ⟨hdigits, hvalue⟩ := value_toDigits n
  have hdata : (toString n).data = Nat.toDigits 10 n := rfl
  have hne : Nat.toDigits 10 n ≠ [] := by
    rw [show Nat.toDigits 10 n = Nat.toDigitsCore 10 (n + 1) n [] from rfl, toDigitsCore_succ]
    simp
  -- the first character is a digit, so there is no sign
  have hsign : splitSign (Nat.toDigits 10 n) = (false, Nat.toDigits 10 n) := by
    obtain ⟨c, cs, hcs⟩ := List.exists_cons_of_ne_nil hne
    have hc := hdigits c (by simp [hcs])
    rw [hcs]
    unfold splitSign
    split <;> simp_all [Char.isDigit]
  unfold atoi
  split_ifs
  · simp only [atoiFast, hdata, hsign, if_neg hne, fastDigits_eq _ _ hdigits, hvalue]
    rfl
  · simp only [parseInt, hdata, hsign, if_neg hne, parseUint, parseUintLoop_eq _ 0 hdigits
      (by omega), hvalue, Bool.not_false, true_and, Bool.false_eq_true, false_and, or_false,
      if_false]
    rw [if_neg (by omega)]

end Strconv

end Usernaut
