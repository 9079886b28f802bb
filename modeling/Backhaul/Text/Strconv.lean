import Backhaul.Text.Utf8
import Mathlib.Algebra.Group.Nat.Basic

/-!
# `strconv.Atoi` and `strconv.Itoa`

`parsePortMappings` reads a bare port with `strconv.Atoi` and writes it back with
`strconv.Itoa` and with `fmt.Sprintf(":%d", port)`, which writes the same digits. Both
functions are Go's, not the snapshot's, and are modelled from their source for a 64-bit
`int`. `Atoi` takes a fast path for strings of 1 to 18 bytes and otherwise calls
`ParseInt(s, 10, 0)`, which calls `ParseUint(s, 10, 64)`. `Itoa` is `FormatInt(int64(i), 10)`.

What `parsePortMappings` needs of them is which bytes they read and write: a numeral that
`Atoi` accepts is made of signs and digits (`isNumeral_of_atoi`), and so is the text `Itoa`
writes (`isNumeral_of_itoa`). Beyond that, the fast path of `Atoi` reads what
`ParseUint`'s loop reads and cannot overflow (`parseUintLoop_eq_atoiDigits`), and
`ParseInt` reads back the digits `Itoa` writes (`parseInt_itoa`).

`itoa` writes one digit at a time. Go's `FormatInt` looks numbers below 100 up in
`smallsString` and otherwise writes two digits at a time from it; `formatInt` is that code,
and the last section shows that it writes the same bytes.
-/

namespace Backhaul.Strconv

open Utf8

/-- The byte `'+'`. -/
def plus : Byte := 0x2B

/-- The byte `'-'`. -/
def minus : Byte := 0x2D

/-- The errors `strconv.ErrSyntax` and `strconv.ErrRange`. -/
inductive NumError
  | invalid
  | outOfRange
  deriving DecidableEq, Repr

/-- `'0' <= c && c <= '9'`. -/
def isDigit (c : Byte) : Bool := 0x30 ≤ c.toNat && c.toNat ≤ 0x39

/-- A byte a decimal numeral may hold: a sign or a digit. -/
def isNumeral (c : Byte) : Bool := c == plus || c == minus || isDigit c

theorem isNumeral_of_isDigit {c : Byte} (h : isDigit c = true) : isNumeral c = true := by
  simp [isNumeral, h]

/-! ## Reading -/

/-- The loop of `Atoi`'s fast path from the value `n` read so far: `ch -= '0'` on a byte
wraps every byte below `'0'` past `9`, so that `ch > 9` refuses all but the digits. -/
def atoiDigits (n : Nat) : List Byte → Option Nat
  | [] => some n
  | c :: s => if (9 : Byte) < c - 0x30 then none else atoiDigits (n * 10 + (c - 0x30).toNat) s

/-- `maxUint64`, `1<<64 - 1`. -/
def maxUint64 : Nat := 0xFFFFFFFFFFFFFFFF

/-- The cutoff of `ParseInt` for a 64-bit `int`, `1 << 63`. -/
def intCutoff : Nat := 0x8000000000000000

/-- `lower(c)`: `c | ('x' - 'X')`, an ASCII letter in lower case. -/
def lower (c : Byte) : Byte := c ||| 0x20

/-- The switch in the loop of `ParseUint`: the value of a digit or a letter, and `none`, which
the loop answers with `ErrSyntax`, for any other byte. -/
def digitValue (c : Byte) : Option Nat :=
  if isDigit c then some (c - 0x30).toNat
  else if 0x61 ≤ (lower c).toNat ∧ (lower c).toNat ≤ 0x7A then some (lower c - 0x61 + 10).toNat
  else none

/-- The loop of `ParseUint(s, 10, 64)` from the value `n` read so far. A letter is a digit of
ten or more, which base ten refuses with `ErrSyntax`. `n >= cutoff` means that `n*10` would
overflow, and `n1 < n` that `n+d` wrapped; both give `ErrRange` before the rest is read. -/
def parseUintLoop (n : Nat) : List Byte → Except NumError Nat
  | [] => .ok n
  | c :: s =>
    match digitValue c with
    | none => .error .invalid
    | some d =>
      if 10 ≤ d then .error .invalid
      else if maxUint64 / 10 + 1 ≤ n then .error .outOfRange
      else if (n * 10 + d) % (maxUint64 + 1) < n * 10 ∨ maxUint64 < (n * 10 + d) % (maxUint64 + 1)
      then .error .outOfRange
      else parseUintLoop ((n * 10 + d) % (maxUint64 + 1)) s

/-- `strconv.ParseUint(s, 10, 64)`. Base ten leaves `base0` unset, so the rules for
underscores never apply. -/
def parseUint (s : List Byte) : Except NumError Nat :=
  if s = [] then .error .invalid else parseUintLoop 0 s

/-- `strconv.ParseInt(s, 10, 0)` with a 64-bit `int`: a sign, then `ParseUint`, then the range
of `int64`. `ParseUint` returns its range error with `maxVal`, `maxUint64`, which both range
checks refuse. -/
def parseInt : List Byte → Except NumError Int
  | [] => .error .invalid
  | c :: t =>
    match parseUint (if c == plus || c == minus then t else c :: t) with
    | .error .invalid => .error .invalid
    | .error .outOfRange => .error .outOfRange
    | .ok un =>
      if c != minus && intCutoff ≤ un then .error .outOfRange
      else if c == minus && intCutoff < un then .error .outOfRange
      else .ok (if c == minus then -(un : Int) else un)

/-- `strconv.Atoi` with a 64-bit `int`: a string of 1 to 18 bytes takes the fast path, which
cannot overflow, and any other goes through `ParseInt(s, 10, 0)`. -/
def atoi : List Byte → Except NumError Int
  | [] => parseInt []
  | c :: t =>
    if (c :: t).length < 19 then
      if (c == minus || c == plus) && t = [] then .error .invalid
      else match atoiDigits 0 (if c == minus || c == plus then t else c :: t) with
        | none => .error .invalid
        | some n => .ok (if c == minus then -(n : Int) else n)
    else parseInt (c :: t)

example : atoi [0x2B, 0x30, 0x38, 0x30] = .ok 80 := rfl
example : atoi [0x2D] = .error .invalid := rfl

/-! ### What an accepted numeral is made of -/

set_option maxRecDepth 4000 in
theorem isDigit_of_not_lt (c : Byte) : ¬(9 : Byte) < c - 0x30 → isDigit c = true := by
  revert c
  apply byte_forall
  decide

set_option maxRecDepth 4000 in
theorem isDigit_of_digitValue (c : Byte) : (digitValue c).any (· < 10) → isDigit c = true := by
  revert c
  apply byte_forall
  decide

theorem isDigit_of_atoiDigits {n m : Nat} {s : List Byte} (h : atoiDigits n s = some m) :
    ∀ c ∈ s, isDigit c = true := by
  induction s generalizing n with
  | nil => simp
  | cons c s ih =>
    rw [atoiDigits] at h
    split_ifs at h with h9
    intro x hx
    rcases List.mem_cons.mp hx with rfl | hx
    · exact isDigit_of_not_lt x h9
    · exact ih h x hx

/-- A step of `ParseUint`'s loop that does not fail reads a digit. -/
theorem parseUintLoop_cons {n m : Nat} {c : Byte} {s : List Byte}
    (h : parseUintLoop n (c :: s) = .ok m) :
    isDigit c = true ∧ ∃ n', parseUintLoop n' s = .ok m := by
  rw [parseUintLoop] at h
  cases hd : digitValue c with
  | none => simp [hd] at h
  | some d =>
    simp only [hd] at h
    split_ifs at h with h10
    exact ⟨isDigit_of_digitValue c (by simp [hd]; omega), _, h⟩

theorem isDigit_of_parseUintLoop {n m : Nat} {s : List Byte} (h : parseUintLoop n s = .ok m) :
    ∀ c ∈ s, isDigit c = true := by
  induction s generalizing n with
  | nil => simp
  | cons c s ih =>
    obtain ⟨hc, n', hs⟩ := parseUintLoop_cons h
    intro x hx
    rcases List.mem_cons.mp hx with rfl | hx
    · exact hc
    · exact ih hs x hx

theorem isDigit_of_parseUint {m : Nat} {s : List Byte} (h : parseUint s = .ok m) :
    ∀ c ∈ s, isDigit c = true := by
  rw [parseUint] at h
  split_ifs at h
  exact isDigit_of_parseUintLoop h

/-- A numeral is read as an optional sign, dropped when `b` holds, and digits: every byte of
it is then a sign or a digit. -/
theorem isNumeral_of_signed {b : Bool} {c : Byte} {t : List Byte}
    (hb : b = true → isNumeral c = true) (h : ∀ x ∈ (if b then t else c :: t), isDigit x = true) :
    ∀ x ∈ c :: t, isNumeral x = true := by
  cases b with
  | false => exact fun x hx => isNumeral_of_isDigit (h x hx)
  | true =>
    intro x hx
    rcases List.mem_cons.mp hx with rfl | hx
    · exact hb rfl
    · exact isNumeral_of_isDigit (h x hx)

theorem isNumeral_of_parseInt {n : Int} {s : List Byte} (h : parseInt s = .ok n) :
    ∀ c ∈ s, isNumeral c = true := by
  cases s with
  | nil => cases h
  | cons c t =>
    rw [parseInt] at h
    split at h
    · cases h
    · cases h
    · next un hun =>
      refine isNumeral_of_signed (fun hs => ?_) (isDigit_of_parseUint hun)
      simp only [isNumeral, Bool.or_eq_true] at hs ⊢
      exact .inl hs

/-- A numeral that `Atoi` accepts is made of signs and digits. -/
theorem isNumeral_of_atoi {n : Int} {s : List Byte} (h : atoi s = .ok n) :
    ∀ c ∈ s, isNumeral c = true := by
  cases s with
  | nil => cases h
  | cons c t =>
    rw [atoi] at h
    by_cases hlen : (c :: t).length < 19
    · rw [if_pos hlen] at h
      by_cases hempty : ((c == minus || c == plus) && decide (t = [])) = true
      · rw [if_pos hempty] at h
        cases h
      rw [if_neg hempty] at h
      cases hm : atoiDigits 0 (if c == minus || c == plus then t else c :: t) with
      | none =>
        rw [hm] at h
        cases h
      | some m =>
        refine isNumeral_of_signed (fun hs => ?_) (isDigit_of_atoiDigits hm)
        simp only [isNumeral, Bool.or_eq_true] at hs ⊢
        exact .inl hs.symm
    · rw [if_neg hlen] at h
      exact isNumeral_of_parseInt h

/-! ## Writing -/

/-- The base-ten loop of `strconv.formatBits`: it writes the digits of `u` into its buffer
from the end, least significant first (two at a time through `smallsString`, which writes
the same bytes). `fuel` bounds the number of digits; `u + 1` is enough. -/
def formatDigits : Nat → Nat → List Byte → List Byte
  | 0, _, a => a
  | fuel + 1, u, a =>
    if u < 10 then UInt8.ofNat (0x30 + u) :: a
    else formatDigits fuel (u / 10) (UInt8.ofNat (0x30 + u % 10) :: a)

/-- `strconv.Itoa`, that is `FormatInt(int64(i), 10)`: the digits of `|i|`, after a `'-'`
when `i` is negative. -/
def itoa (i : Int) : List Byte :=
  if i < 0 then minus :: formatDigits (i.natAbs + 1) i.natAbs []
  else formatDigits (i.natAbs + 1) i.natAbs []

example : itoa (-8080) = [0x2D, 0x38, 0x30, 0x38, 0x30] := by decide

theorem isDigit_ofNat {d : Nat} (h : d < 10) : isDigit (UInt8.ofNat (0x30 + d)) = true := by
  revert d
  decide

/-- Every byte `formatDigits` writes is a digit. -/
theorem isDigit_of_formatDigits {fuel u : Nat} {a : List Byte} {c : Byte}
    (h : c ∈ formatDigits fuel u a) : c ∈ a ∨ isDigit c = true := by
  induction fuel generalizing u a with
  | zero => exact .inl h
  | succ fuel ih =>
    rw [formatDigits] at h
    split_ifs at h with hu
    · rcases List.mem_cons.mp h with rfl | h
      · exact .inr (isDigit_ofNat hu)
      · exact .inl h
    · rcases ih h with h | h
      · rcases List.mem_cons.mp h with rfl | h
        · exact .inr (isDigit_ofNat (Nat.mod_lt u (by omega)))
        · exact .inl h
      · exact .inr h

/-- `Itoa` writes signs and digits only. -/
theorem isNumeral_of_itoa (i : Int) : ∀ c ∈ itoa i, isNumeral c = true := by
  have hdigits : ∀ c ∈ formatDigits (i.natAbs + 1) i.natAbs [], isNumeral c = true :=
    fun c hc => isNumeral_of_isDigit ((isDigit_of_formatDigits hc).resolve_left (by simp))
  unfold itoa
  split_ifs
  · intro x hx
    rcases List.mem_cons.mp hx with rfl | hx
    · rfl
    · exact hdigits x hx
  · exact hdigits

/-! ## The fast path of `Atoi` -/

set_option maxRecDepth 4000 in
theorem not_lt_of_isDigit (c : Byte) : isDigit c = true → ¬(9 : Byte) < c - 0x30 := by
  revert c
  apply byte_forall
  decide

set_option maxRecDepth 4000 in
theorem toNat_sub_lt_of_isDigit (c : Byte) : isDigit c = true → (c - 0x30).toNat < 10 := by
  revert c
  apply byte_forall
  decide

/-- What the fast path reads from `n` is below `n + 1` shifted past the bytes read. -/
theorem atoiDigits_lt {n m : Nat} {s : List Byte} (h : atoiDigits n s = some m) :
    m < (n + 1) * 10 ^ s.length := by
  induction s generalizing n with
  | nil => cases h; simp
  | cons c s ih =>
    rw [atoiDigits] at h
    split_ifs at h with h9
    have hd := toNat_sub_lt_of_isDigit c (isDigit_of_not_lt c h9)
    calc m < (n * 10 + (c - 0x30).toNat + 1) * 10 ^ s.length := ih h
      _ ≤ (n + 1) * 10 * 10 ^ s.length := Nat.mul_le_mul_right _ (by omega)
      _ = (n + 1) * 10 ^ (c :: s).length := by
        rw [List.length_cons, pow_succ, Nat.mul_assoc, Nat.mul_comm 10]

/-- On a numeral short enough not to overflow, the loop of `ParseUint` reads what the loop of
`Atoi`'s fast path reads, and refuses what it refuses. -/
theorem parseUintLoop_eq_atoiDigits {n : Nat} {s : List Byte}
    (h : (n + 1) * 10 ^ s.length ≤ 10 ^ 18) :
    parseUintLoop n s = (atoiDigits n s).elim (.error .invalid) .ok := by
  induction s generalizing n with
  | nil => rfl
  | cons c s ih =>
    have hpow : (n + 1) * 10 * 10 ^ s.length ≤ 10 ^ 18 := by
      rwa [List.length_cons, pow_succ, mul_comm (10 ^ s.length), ← mul_assoc] at h
    rw [parseUintLoop, atoiDigits]
    by_cases hc : isDigit c = true
    · have hd := toNat_sub_lt_of_isDigit c hc
      have hn : (n + 1) * 10 ≤ 10 ^ 18 :=
        (Nat.le_mul_of_pos_right _ (Nat.pos_pow_of_pos _ (by decide))).trans hpow
      have h18 : (10 : Nat) ^ 18 = 1000000000000000000 := rfl
      have hmax : maxUint64 = 18446744073709551615 := rfl
      rw [digitValue, if_pos hc, if_neg (not_lt_of_isDigit c hc)]
      dsimp only
      rw [if_neg (by omega), if_neg (by omega),
        Nat.mod_eq_of_lt (show n * 10 + (c - 0x30).toNat < maxUint64 + 1 by omega),
        if_neg (by omega)]
      exact ih ((Nat.mul_le_mul_right _ (by omega)).trans hpow)
    · rw [if_pos (Decidable.of_not_not fun h9 => hc (isDigit_of_not_lt c h9))]
      cases hv : digitValue c with
      | none => rfl
      | some d =>
        have hd : ¬d < 10 := fun hd => hc (isDigit_of_digitValue c (by simp [hv, hd]))
        rw [Option.elim_none]
        exact if_pos (by omega)

/-- On one to eighteen bytes the fast path of `Atoi` returns what `ParseInt(s, 10, 0)`
returns: a numeral that short can neither overflow `ParseUint` nor leave the range of
`int64`. -/
theorem atoi_eq_parseInt_of_length_lt {s : List Byte} (h : s.length < 19) :
    atoi s = parseInt s := by
  cases s with
  | nil => rfl
  | cons c t =>
    rw [atoi, if_pos h, parseInt, Bool.or_comm (c == plus)]
    by_cases hempty : ((c == minus || c == plus) && decide (t = [])) = true
    · rw [if_pos hempty]
      simp only [Bool.and_eq_true, decide_eq_true_eq] at hempty
      rw [hempty.1, if_pos rfl, hempty.2]
      rfl
    rw [if_neg hempty]
    have hu : (if (c == minus || c == plus) = true then t else c :: t) ≠ [] := by
      split_ifs with hsign
      · simpa [hsign] using hempty
      · exact List.cons_ne_nil c t
    have hulen : (if (c == minus || c == plus) = true then t else c :: t).length ≤ 18 := by
      split_ifs <;> simp only [List.length_cons] at h ⊢ <;> omega
    have hloop := parseUintLoop_eq_atoiDigits (n := 0)
      (s := if (c == minus || c == plus) = true then t else c :: t)
      (by rw [Nat.zero_add, Nat.one_mul]; exact Nat.pow_le_pow_right (by decide) hulen)
    rw [parseUint, if_neg hu, hloop]
    cases hm : atoiDigits 0 (if (c == minus || c == plus) = true then t else c :: t) with
    | none => rfl
    | some m =>
      have hlt := atoiDigits_lt hm
      have hbound : m < intCutoff := by
        have : 10 ^ (if (c == minus || c == plus) = true then t else c :: t).length ≤ 10 ^ 18 :=
          Nat.pow_le_pow_right (by decide) hulen
        rw [Nat.zero_add, Nat.one_mul] at hlt
        have h18 : (10 : Nat) ^ 18 = 1000000000000000000 := rfl
        simp only [intCutoff]
        omega
      have hle : ¬intCutoff ≤ m := by omega
      have hlt : ¬intCutoff < m := by omega
      simp only [Option.elim_some, hle, hlt, decide_False, Bool.and_false, Bool.false_eq_true,
        ↓reduceIte]

/-- `Atoi`'s fast path is only that: on every string it returns what
`ParseInt(s, 10, 0)` returns, the value when it succeeds and the kind of error when it
fails. -/
theorem atoi_eq_parseInt (s : List Byte) : atoi s = parseInt s := by
  by_cases h : s.length < 19
  · exact atoi_eq_parseInt_of_length_lt h
  · cases s with
    | nil => rfl
    | cons c t => rw [atoi, if_neg h]

/-! ## `Atoi` reads back what `Itoa` writes -/

theorem digitValue_ofNat {d : Nat} (h : d < 10) : digitValue (UInt8.ofNat (0x30 + d)) = some d := by
  revert d
  decide

set_option maxRecDepth 4000 in
theorem sign_of_isDigit (c : Byte) : isDigit c = true → (c == plus || c == minus) = false := by
  revert c
  apply byte_forall
  decide

/-- `formatDigits` writes its digits in front of what it was given. -/
theorem formatDigits_append (fuel u : Nat) (a : List Byte) :
    formatDigits fuel u a = formatDigits fuel u [] ++ a := by
  induction fuel generalizing u a with
  | zero => rfl
  | succ fuel ih =>
    rw [formatDigits, formatDigits]
    split_ifs
    · rfl
    · rw [ih, ih _ [_], List.append_assoc]
      rfl

theorem formatDigits_ne_nil (fuel u : Nat) : formatDigits (fuel + 1) u [] ≠ [] := by
  rw [formatDigits]
  split_ifs
  · exact List.cons_ne_nil _ _
  · rw [formatDigits_append]
    simp

/-- `ParseUint`'s loop reads a concatenation in two goes. -/
theorem parseUintLoop_append (n : Nat) (s a : List Byte) :
    parseUintLoop n (s ++ a) = (parseUintLoop n s).bind (parseUintLoop · a) := by
  induction s generalizing n with
  | nil => rfl
  | cons c s ih =>
    rw [List.cons_append, parseUintLoop, parseUintLoop]
    split
    · rfl
    · split_ifs <;> first | rfl | exact ih _

/-- One more digit `d` after the value `n`, with no overflow. -/
theorem parseUintLoop_digit {n d : Nat} (hd : d < 10) (h : n * 10 + d ≤ maxUint64) :
    parseUintLoop n [UInt8.ofNat (0x30 + d)] = .ok (n * 10 + d) := by
  have hmax : maxUint64 = 18446744073709551615 := rfl
  rw [parseUintLoop, digitValue_ofNat hd]
  dsimp only
  rw [if_neg (by omega), if_neg (by omega), Nat.mod_eq_of_lt (by omega), if_neg (by omega)]
  rfl

/-- `ParseUint`'s loop reads back the digits `formatDigits` writes, given digits enough. -/
theorem parseUintLoop_formatDigits {fuel u : Nat} (hfuel : u < 10 ^ fuel) (hu : u ≤ maxUint64) :
    parseUintLoop 0 (formatDigits fuel u []) = .ok u := by
  induction fuel generalizing u with
  | zero =>
    obtain rfl : u = 0 := by rw [pow_zero] at hfuel; omega
    rfl
  | succ fuel ih =>
    rw [formatDigits]
    split_ifs with h10
    · simpa using parseUintLoop_digit (n := 0) h10 (by simpa using hu)
    · have hdiv : u / 10 < 10 ^ fuel :=
        (Nat.div_lt_iff_lt_mul (by decide)).mpr (by rwa [← pow_succ])
      rw [formatDigits_append, parseUintLoop_append, ih hdiv (by omega)]
      have := parseUintLoop_digit (n := u / 10) (Nat.mod_lt u (by decide))
        (by rw [Nat.div_add_mod' u 10]; exact hu)
      rwa [Nat.div_add_mod' u 10] at this

/-- `ParseUint` reads back the digits `Itoa` writes for a value of 64 bits. -/
theorem parseUint_formatDigits {u : Nat} (hu : u ≤ maxUint64) :
    parseUint (formatDigits (u + 1) u []) = .ok u := by
  rw [parseUint, if_neg (formatDigits_ne_nil u u),
    parseUintLoop_formatDigits (Nat.lt_of_succ_lt (Nat.lt_pow_self (by decide) _)) hu]

/-- `ParseInt(s, 10, 0)` reads back what `Itoa` writes, for every 64-bit `int`. -/
theorem parseInt_itoa {i : Int} (h₁ : -(intCutoff : Int) ≤ i) (h₂ : i < intCutoff) :
    parseInt (itoa i) = .ok i := by
  have hcut : intCutoff = 9223372036854775808 := rfl
  have hmax : maxUint64 = 18446744073709551615 := rfl
  have hread := parseUint_formatDigits (u := i.natAbs) (by omega)
  rw [itoa]
  split_ifs with hneg
  · have hle : ¬intCutoff < i.natAbs := by omega
    simp only [parseInt, beq_self_eq_true, Bool.or_true, ↓reduceIte, hread, bne_self_eq_false,
      Bool.false_and, Bool.false_eq_true, hle, decide_False, Bool.and_false]
    congr 1
    omega
  · obtain ⟨c, t, hct⟩ := List.exists_cons_of_ne_nil (formatDigits_ne_nil i.natAbs i.natAbs)
    have hc : isDigit c = true :=
      (isDigit_of_formatDigits (hct ▸ List.mem_cons_self c t)).resolve_left (List.not_mem_nil _)
    have hcm : (c == minus) = false := by
      have := sign_of_isDigit c hc
      simp only [Bool.or_eq_false_iff] at this
      exact this.2
    have hle : ¬intCutoff ≤ i.natAbs := by omega
    rw [hct] at hread ⊢
    rw [parseInt, sign_of_isDigit c hc, if_neg Bool.false_ne_true, hread]
    simp only [bne, hcm, Bool.not_false, hle, decide_False, Bool.and_false, Bool.false_and,
      Bool.false_eq_true, ↓reduceIte]
    congr 1
    omega

theorem itoa_ne_nil (i : Int) : itoa i ≠ [] := by
  rw [itoa]
  split_ifs
  · exact List.cons_ne_nil _ _
  · exact formatDigits_ne_nil _ _

/-- `Atoi` reads back what `Itoa` writes, for every 64-bit `int`: through its fast path when
the text has at most eighteen bytes, through `ParseInt` otherwise. -/
theorem atoi_itoa {i : Int} (h₁ : -(intCutoff : Int) ≤ i) (h₂ : i < intCutoff) :
    atoi (itoa i) = .ok i := by
  by_cases hlen : (itoa i).length < 19
  · rw [atoi_eq_parseInt_of_length_lt hlen, parseInt_itoa h₁ h₂]
  · obtain ⟨c, t, hct⟩ := List.exists_cons_of_ne_nil (itoa_ne_nil i)
    rw [hct] at hlen ⊢
    rw [atoi, if_neg hlen, ← hct, parseInt_itoa h₁ h₂]

/-- The least `int64`, whose twenty bytes go through `ParseInt`, is read back. -/
theorem atoi_itoa_int64_min :
    -(intCutoff : Int) ≤ -0x8000000000000000 ∧ -0x8000000000000000 < (intCutoff : Int) ∧
      atoi (itoa (-0x8000000000000000)) = .ok (-0x8000000000000000) :=
  ⟨by decide, by decide, atoi_itoa (by decide) (by decide)⟩

/-! ## `FormatInt` as Go writes it -/

/-- Go's `smallsString`: the two digits of every number below 100, in order. -/
def smallsString : List Byte :=
  ("00010203040506070809" ++
  "10111213141516171819" ++
  "20212223242526272829" ++
  "30313233343536373839" ++
  "40414243444546474849" ++
  "50515253545556575859" ++
  "60616263646566676869" ++
  "70717273747576777879" ++
  "80818283848586878889" ++
  "90919293949596979899").toUTF8.data.toList

/-- Go's `digits`, the digit bytes of every base up to 36. -/
def digits : List Byte := "0123456789abcdefghijklmnopqrstuvwxyz".toUTF8.data.toList

/-- `nSmalls`: `FormatInt` looks numbers below it up in a table. -/
def nSmalls : Nat := 100

/-- `strconv.small`: the text of `0 ≤ i < nSmalls`, a slice of `digits` or of `smallsString`. -/
def small (i : Nat) : List Byte :=
  if i < 10 then (digits.drop i).take 1 else (smallsString.drop (i * 2)).take 2

/-- The base-ten loop of `strconv.formatBits` on a 64-bit host: while `us ≥ 100` it writes
two digits from `smallsString` into the end of its buffer, then the last one or two.
`fuel` bounds the rounds; `us + 1` is enough. -/
def formatBits10 : Nat → Nat → List Byte → List Byte
  | 0, _, a => a
  | fuel + 1, us, a =>
    if us ≥ 100 then
      let is := us % 100 * 2
      formatBits10 fuel (us / 100) (smallsString.getD is 0 :: smallsString.getD (is + 1) 0 :: a)
    else
      let is := us * 2
      let a := smallsString.getD (is + 1) 0 :: a
      if us ≥ 10 then smallsString.getD is 0 :: a else a

/-- `strconv.formatBits(nil, u, 10, neg, false)` for a `uint64` `u`: it negates `u` modulo
`2^64` when `neg`, writes the digits, and then the sign. -/
def formatBits (u : Nat) (neg : Bool) : List Byte :=
  let u := if neg then (maxUint64 + 1 - u) % (maxUint64 + 1) else u
  let a := formatBits10 (u + 1) u []
  if neg then minus :: a else a

/-- `strconv.FormatInt(i, 10)` for an `int64` `i`, which `Itoa` calls: `small` below
`nSmalls`, otherwise `formatBits` of `uint64(i)`. -/
def formatInt (i : Int) : List Byte :=
  if 0 ≤ i ∧ i < nSmalls then small i.toNat
  else formatBits (i % (maxUint64 + 1 : Nat)).toNat (i < 0)

/-- The two digit bytes of a number below 100. -/
def digitPair (n : Nat) : List Byte := [UInt8.ofNat (0x30 + n / 10), UInt8.ofNat (0x30 + n % 10)]

set_option maxRecDepth 4000 in
/-- `smallsString` is the digit pairs of `0, 1, …, 99`, one after the other. -/
theorem smallsString_eq : smallsString = (List.range 100).flatMap digitPair := by decide

/-- Dropping `k` pairs from a list of pairs laid out flat. -/
theorem drop_flatMap_pair {α β : Type} (f : α → List β) (hf : ∀ a, (f a).length = 2)
    (l : List α) (k : Nat) : (l.flatMap f).drop (k * 2) = (l.drop k).flatMap f := by
  induction l generalizing k with
  | nil => simp
  | cons x l ih =>
    cases k with
    | zero => rfl
    | succ k =>
      rw [List.flatMap_cons, Nat.succ_mul, Nat.add_comm, ← List.drop_drop, List.drop_left' (hf x),
        ih, List.drop_succ_cons]

/-- From byte `2n` on, `smallsString` holds the digits of `n`. -/
theorem smallsString_drop {n : Nat} (h : n < 100) :
    smallsString.drop (n * 2) =
      digitPair n ++ ((List.range 100).drop (n + 1)).flatMap digitPair := by
  rw [smallsString_eq, drop_flatMap_pair digitPair (fun _ => rfl),
    List.drop_eq_getElem_cons (by simpa), List.flatMap_cons, List.getElem_range]

theorem smallsString_getD {n : Nat} (h : n < 100) :
    smallsString.getD (n * 2) 0 = UInt8.ofNat (0x30 + n / 10) ∧
      smallsString.getD (n * 2 + 1) 0 = UInt8.ofNat (0x30 + n % 10) := by
  have hd := smallsString_drop h
  simp only [digitPair, List.cons_append, List.nil_append] at hd
  constructor
  · show smallsString.getD (n * 2 + 0) 0 = _
    rw [List.getD_eq_getElem?_getD, ← List.getElem?_drop, hd]
    rfl
  · rw [List.getD_eq_getElem?_getD, ← List.getElem?_drop, hd, List.getElem?_cons_succ,
      List.getElem?_cons_zero]
    rfl

theorem small_eq_formatDigits {n : Nat} (h : n < 100) : small n = formatDigits 2 n [] := by
  by_cases h10 : n < 10
  · revert n
    decide
  · rw [small, if_neg h10, smallsString_drop h, formatDigits, if_neg h10, formatDigits,
      if_pos (by omega)]
    rfl

theorem div_lt_of_lt_pow_succ {b u f : Nat} (hb : 0 < b) (h : u < b ^ (f + 1)) : u / b < b ^ f :=
  (Nat.div_lt_iff_lt_mul hb).mpr (by rwa [← pow_succ])

/-- `formatDigits` writes the same bytes with any fuel that covers the digits of `u`. -/
theorem formatDigits_fuel {f g u : Nat} (a : List Byte) (hf : u < 10 ^ (f + 1))
    (hg : u < 10 ^ (g + 1)) : formatDigits (f + 1) u a = formatDigits (g + 1) u a := by
  induction f generalizing u a g with
  | zero =>
    have h10 : u < 10 := by simpa using hf
    rw [formatDigits, if_pos h10]
    conv_rhs => rw [formatDigits, if_pos h10]
  | succ f ih =>
    rw [formatDigits]
    conv_rhs => rw [formatDigits]
    split_ifs with h10
    · rfl
    · obtain ⟨g, rfl⟩ : ∃ g', g = g' + 1 :=
        Nat.exists_eq_succ_of_ne_zero (by rintro rfl; simp at hg; omega)
      exact ih _ (div_lt_of_lt_pow_succ (by decide) hf) (div_lt_of_lt_pow_succ (by decide) hg)

/-- Two digits at a time through `smallsString` write what one digit at a time writes. -/
theorem formatBits10_eq {fuel us : Nat} (a : List Byte) (h : us < 100 ^ fuel) :
    formatBits10 fuel us a = formatDigits (2 * fuel) us a := by
  induction fuel generalizing us a with
  | zero =>
    obtain rfl : us = 0 := by simpa using h
    rfl
  | succ fuel ih =>
    rw [formatBits10, show 2 * (fuel + 1) = 2 * fuel + 1 + 1 by omega, formatDigits, formatDigits]
    dsimp only
    by_cases h100 : us ≥ 100
    · have hpair := smallsString_getD (Nat.mod_lt us (show 100 > 0 by decide))
      have h1 : us / 10 / 10 = us / 100 := by omega
      have h2 : us % 100 / 10 = us / 10 % 10 := by omega
      have h3 : us % 100 % 10 = us % 10 := by omega
      rw [if_pos h100, if_neg (by omega), if_neg (by omega),
        ih _ (div_lt_of_lt_pow_succ (by decide) h),
        hpair.1, hpair.2, h1, h2, h3]
    · have hpair := smallsString_getD (Nat.lt_of_not_le h100)
      rw [if_neg h100]
      by_cases h10 : us < 10
      · rw [if_pos h10, if_neg (by omega), hpair.2, Nat.mod_eq_of_lt h10]
      · rw [if_neg h10, if_pos (by omega), if_pos (show us / 10 < 10 by omega), hpair.1, hpair.2]

/-- The loop `formatBits` runs, with the fuel it is given, writes the digits `itoa` writes. -/
theorem formatBits10_eq_formatDigits (u : Nat) :
    formatBits10 (u + 1) u [] = formatDigits (u + 1) u [] := by
  have hpow : ∀ f, u ≤ f → u < 10 ^ (f + 1) := fun f hf =>
    Nat.lt_of_le_of_lt hf (Nat.lt_of_succ_lt (Nat.lt_pow_self (by decide) _))
  rw [formatBits10_eq _ (Nat.lt_of_succ_lt (Nat.lt_pow_self (by decide : 1 < 100) _)),
    show 2 * (u + 1) = 2 * u + 1 + 1 by omega]
  exact formatDigits_fuel _ (hpow _ (by omega)) (hpow _ le_rfl)

/-- `FormatInt(i, 10)` as Go computes it, through the table of small numbers and two digits
at a time, writes what the one-digit-at-a-time `itoa` writes, for every 64-bit `int`. -/
theorem formatInt_eq_itoa {i : Int} (h₁ : -(intCutoff : Int) ≤ i) (h₂ : i < intCutoff) :
    formatInt i = itoa i := by
  have hcut : intCutoff = 9223372036854775808 := rfl
  have hmax : maxUint64 = 18446744073709551615 := rfl
  have hn : nSmalls = 100 := rfl
  rw [formatInt, itoa]
  by_cases hs : 0 ≤ i ∧ i < nSmalls
  · have hu : i.toNat = i.natAbs := by omega
    rw [if_pos hs, if_neg (by omega), small_eq_formatDigits (by omega), hu]
    exact formatDigits_fuel _ (by omega) (Nat.lt_of_succ_lt (Nat.lt_pow_self (by decide) _))
  · rw [if_neg hs, formatBits]
    by_cases hneg : i < 0
    · have hu : (maxUint64 + 1 - (i % ((maxUint64 + 1 : Nat) : Int)).toNat) % (maxUint64 + 1) =
          i.natAbs := by rw [hmax]; omega
      simp only [hneg, decide_True, ↓reduceIte, hu, formatBits10_eq_formatDigits]
    · have hu : (i % ((maxUint64 + 1 : Nat) : Int)).toNat = i.natAbs := by rw [hmax]; omega
      simp only [hneg, decide_False, Bool.false_eq_true, ↓reduceIte, hu,
        formatBits10_eq_formatDigits]

/-- The least `int64`, whose negation overflows back to itself as a `uint64`, is written as
`itoa` writes it. -/
theorem formatInt_eq_itoa_int64_min :
    -(intCutoff : Int) ≤ -0x8000000000000000 ∧ -0x8000000000000000 < (intCutoff : Int) ∧
      formatInt (-0x8000000000000000) = itoa (-0x8000000000000000) :=
  ⟨by decide, by decide, formatInt_eq_itoa (by decide) (by decide)⟩

example : formatInt (-8080) = itoa (-8080) := by decide

end Backhaul.Strconv
