import Backhaul.Wire.Codec

/-!
# Runes of a Go string

`parsePortMappings` trims both sides of a mapping with `strings.TrimSpace`, which reads a
Go string, a sequence of bytes, as UTF-8 through `unicode/utf8`. That package belongs to
Go's standard library, not to the snapshot: the table `first`, `RuneStart`,
`DecodeRuneInString` and `DecodeLastRuneInString` are modelled from its source. Nothing
here assumes that the bytes are valid UTF-8.

Decoding from the front cuts every byte string into its runes (`runes`): a valid
encoding, or a single byte that decodes to `RuneError`. The cut is stable under taking
a prefix or a suffix at a rune boundary, every byte that `RuneStart` accepts begins a
rune, and `DecodeLastRuneInString`, which decodes backwards, returns exactly the last rune
of the cut (`decodeLastRuneInString_runes`).
-/

namespace Backhaul.Utf8

/-- `utf8.RuneError`, U+FFFD. -/
def runeError : Nat := 0xFFFD

/-- `utf8.RuneSelf`: a byte below it is a rune of its own. -/
def runeSelf : Nat := 0x80

/-- `utf8.UTFMax`, the length of the longest encoding. -/
def utfMax : Nat := 4

/-- `utf8.locb`, the least continuation byte. -/
def locb : Nat := 0x80

/-- `utf8.hicb`, the greatest continuation byte. -/
def hicb : Nat := 0xBF

/-- `utf8.maskx`, the payload bits of a continuation byte. -/
def maskx : Nat := 0x3F

/-- A property of every byte follows from one of each of the 256 values. -/
theorem byte_forall {P : Byte → Prop} (h : ∀ n : Fin 256, P (UInt8.ofNat n)) (b : Byte) :
    P b := by
  have hb : UInt8.ofNat b.toNat = b :=
    UInt8.eq_of_val_eq (by simp [UInt8.val, UInt8.toNat, UInt8.ofNat])
  simpa [hb] using h ⟨b.toNat, b.toBitVec.isLt⟩

/-- `utf8.RuneStart`: the byte is not a continuation byte `10xxxxxx`. -/
def runeStart (b : Byte) : Bool := b.toNat &&& 0xC0 != 0x80

set_option maxRecDepth 4000 in
/-- The bytes `RuneStart` rejects are exactly the continuation bytes. -/
theorem runeStart_eq_false_iff (b : Byte) :
    runeStart b = false ↔ locb ≤ b.toNat ∧ b.toNat ≤ hicb := by
  revert b
  apply byte_forall
  decide

/-! ## Decoding from the front -/

/-- What the table `utf8.first` records of a leading byte. -/
inductive Lead
  /-- `as`: an ASCII byte. -/
  | ascii
  /-- `xx`: a byte that starts no encoding. -/
  | invalid
  /-- A leading byte of an encoding of `size` bytes whose second byte lies in `[lo, hi]`,
  the entry of `utf8.acceptRanges` the table points to. -/
  | multi (size lo hi : Nat)
  deriving DecidableEq, Repr

/-- The table `utf8.first`, written as the runs of bytes that share an entry. -/
def first (b : Byte) : Lead :=
  if b.toNat < 0x80 then .ascii
  else if b.toNat < 0xC2 then .invalid
  else if b.toNat < 0xE0 then .multi 2 locb hicb
  else if b.toNat = 0xE0 then .multi 3 0xA0 hicb
  else if b.toNat < 0xED then .multi 3 locb hicb
  else if b.toNat = 0xED then .multi 3 locb 0x9F
  else if b.toNat < 0xF0 then .multi 3 locb hicb
  else if b.toNat = 0xF0 then .multi 4 0x90 hicb
  else if b.toNat < 0xF4 then .multi 4 locb hicb
  else if b.toNat = 0xF4 then .multi 4 locb 0x8F
  else .invalid

/-- What an entry of `first` says of its byte. -/
def Lead.fits (b : Byte) : Lead → Bool
  | .ascii => b.toNat < runeSelf
  | .invalid => runeSelf ≤ b.toNat
  | .multi size lo hi =>
    2 ≤ size && size ≤ utfMax && 0xC2 ≤ b.toNat && locb ≤ lo && hi ≤ hicb

set_option maxRecDepth 4000 in
theorem first_fits (b : Byte) : (first b).fits b = true := by
  revert b
  apply byte_forall
  decide

theorem first_multi {b : Byte} {sz lo hi : Nat} (h : first b = .multi sz lo hi) :
    2 ≤ sz ∧ sz ≤ utfMax ∧ 0xC2 ≤ b.toNat ∧ locb ≤ lo ∧ hi ≤ hicb := by
  simpa [h, Lead.fits, and_assoc] using first_fits b

theorem first_of_lt {b : Byte} (h : b.toNat < runeSelf) : first b = .ascii := by
  simp only [runeSelf] at h
  simp only [first, h, if_true]

/-- `utf8.mask2`, `mask3` and `mask4`: the payload bits of the leading byte of an
encoding of `size` bytes. -/
def leadMask (size : Nat) : Nat := 0xFF >>> (size + 1)

/-- The checks `DecodeRuneInString` makes on the third and fourth bytes of an
encoding, written as one loop: `n` more bytes, each in `[locb, hicb]`, each shifted into
the rune six bits at a time. `none` stands for `(RuneError, 1)`. -/
def decodeTail (r : Nat) : Nat → List Byte → Option Nat
  | 0, _ => some r
  | n + 1, b :: s =>
    if b.toNat < locb ∨ hicb < b.toNat then none
    else decodeTail (r <<< 6 ||| (b.toNat &&& maskx)) n s
  | _ + 1, [] => none

/-- `utf8.DecodeRuneInString`: the first rune of `s` and the number of bytes it takes.
The empty string gives `(RuneError, 0)`; an invalid or incomplete encoding gives
`(RuneError, 1)`. The `[]` branch is never taken: the length test before it has
failed. -/
def decodeRuneInString : List Byte → Nat × Nat
  | [] => (runeError, 0)
  | s0 :: s =>
    match first s0 with
    | .ascii => (s0.toNat, 1)
    | .invalid => (runeError, 1)
    | .multi sz lo hi =>
      if s.length + 1 < sz then (runeError, 1) else
      match s with
      | [] => (runeError, 1)
      | s1 :: s =>
        if s1.toNat < lo ∨ hi < s1.toNat then (runeError, 1) else
        match decodeTail ((s0.toNat &&& leadMask sz) <<< 6 ||| (s1.toNat &&& maskx)) (sz - 2) s
        with
        | some r => (r, sz)
        | none => (runeError, 1)

example : decodeRuneInString [0xE2, 0x80, 0xA8, 0x41] = (0x2028, 3) := by decide

example : decodeRuneInString [0xF0, 0x9F, 0x98, 0x80] = (0x1F600, 4) := by decide

example : decodeRuneInString [0xE2, 0x80] = (runeError, 1) := by decide

/-- The loop reads no byte past the ones it checks. -/
theorem decodeTail_take {r n k : Nat} {s : List Byte} (h : n ≤ k) :
    decodeTail r n (s.take k) = decodeTail r n s := by
  induction n generalizing r s k with
  | zero => rfl
  | succ n ih =>
    obtain ⟨k, rfl⟩ : ∃ k', k = k' + 1 := ⟨k - 1, by omega⟩
    cases s with
    | nil => rfl
    | cons b s => simp only [List.take_succ_cons, decodeTail, ih (Nat.le_of_succ_le_succ h)]

/-- A loop that succeeds had all its bytes, and they were continuation bytes. -/
theorem decodeTail_some {r n v : Nat} {s : List Byte} (h : decodeTail r n s = some v) :
    n ≤ s.length ∧ ∀ b ∈ s.take n, runeStart b = false := by
  induction n generalizing r s with
  | zero => simp
  | succ n ih =>
    cases s with
    | nil => cases h
    | cons b s =>
      simp only [decodeTail] at h
      split_ifs at h with hb
      obtain ⟨hlen, hcont⟩ := ih h
      refine ⟨by simp only [List.length_cons]; omega, ?_⟩
      simp only [List.take_succ_cons, List.mem_cons, forall_eq_or_imp]
      exact ⟨(runeStart_eq_false_iff b).mpr (by omega), hcont⟩

theorem decodeRuneInString_cons_ascii {b : Byte} (h : b.toNat < runeSelf) (s : List Byte) :
    decodeRuneInString (b :: s) = (b.toNat, 1) := by
  simp only [decodeRuneInString, first_of_lt h]

/-- After a leading byte of a longer encoding, decoding fails, or takes the whole
encoding, which is then present and made of continuation bytes after the first. -/
theorem decodeRuneInString_multi {s0 : Byte} {s : List Byte} {sz lo hi : Nat}
    (hf : first s0 = .multi sz lo hi) :
    decodeRuneInString (s0 :: s) = (runeError, 1) ∨
      ((decodeRuneInString (s0 :: s)).2 = sz ∧ sz ≤ s.length + 1 ∧
        ∀ b ∈ s.take (sz - 1), runeStart b = false) := by
  obtain ⟨h2, -, -, hlo, hhi⟩ := first_multi hf
  simp only [decodeRuneInString, hf]
  split_ifs with hshort
  · exact .inl rfl
  cases s with
  | nil => exact .inl rfl
  | cons s1 s =>
    simp only
    split_ifs with h1
    · exact .inl rfl
    split
    · rename_i v hv
      obtain ⟨hlen, hcont⟩ := decodeTail_some hv
      refine .inr ⟨rfl, by omega, ?_⟩
      obtain ⟨k, hk⟩ : ∃ k, sz - 1 = k + 1 := ⟨sz - 2, by omega⟩
      simp only [hk, List.take_succ_cons, List.mem_cons, forall_eq_or_imp]
      exact ⟨(runeStart_eq_false_iff s1).mpr (by omega), by rwa [show k = sz - 2 by omega]⟩
    · exact .inl rfl

/-- A lone byte that is not ASCII decodes to `RuneError`. -/
theorem decodeRuneInString_singleton {b : Byte} (h : runeSelf ≤ b.toNat) :
    decodeRuneInString [b] = (runeError, 1) := by
  cases hf : first b with
  | ascii =>
    have := first_fits b
    simp only [hf, Lead.fits, decide_eq_true_eq] at this
    omega
  | invalid => simp only [decodeRuneInString, hf]
  | multi sz lo hi =>
    obtain ⟨h2, -⟩ := first_multi hf
    rcases decodeRuneInString_multi (s := []) hf with h | ⟨-, hle, -⟩
    · exact h
    · simp at hle; omega

/-- A rune takes at least one byte of a non-empty string, and at most `UTFMax`. -/
theorem decodeRuneInString_size (s0 : Byte) (s : List Byte) :
    1 ≤ (decodeRuneInString (s0 :: s)).2 ∧ (decodeRuneInString (s0 :: s)).2 ≤ s.length + 1 ∧
      (decodeRuneInString (s0 :: s)).2 ≤ utfMax := by
  cases hf : first s0 with
  | ascii => simp only [decodeRuneInString, hf, utfMax]; omega
  | invalid => simp only [decodeRuneInString, hf, utfMax]; omega
  | multi sz lo hi =>
    obtain ⟨h2, h4, -⟩ := first_multi hf
    rcases decodeRuneInString_multi (s := s) hf with h | ⟨h, hle, -⟩
    · simp only [h, utfMax]; omega
    · omega

/-- Decoding after a longer leading byte reads no byte past the encoding. -/
theorem decodeRuneInString_take_size {s0 : Byte} {s : List Byte} {sz lo hi : Nat}
    (hf : first s0 = .multi sz lo hi) :
    decodeRuneInString (s0 :: s.take (sz - 1)) = decodeRuneInString (s0 :: s) := by
  obtain ⟨h2, -⟩ := first_multi hf
  obtain ⟨k, hk⟩ : ∃ k, sz - 1 = k + 1 := ⟨sz - 2, by omega⟩
  simp only [decodeRuneInString, hf, hk]
  cases s with
  | nil => rfl
  | cons s1 s =>
    have hlen : (List.take k s).length + 1 + 1 < sz ↔ s.length + 1 + 1 < sz := by
      simp only [List.length_take]; omega
    simp only [List.take_succ_cons, List.length_cons, hlen,
      decodeTail_take (show sz - 2 ≤ k by omega)]

/-- Cutting the string after its first rune does not change what it decodes to. -/
theorem decodeRuneInString_take {s : List Byte} {k : Nat}
    (hk : (decodeRuneInString s).2 ≤ k) :
    decodeRuneInString (s.take k) = decodeRuneInString s := by
  rcases s with _ | ⟨s0, s⟩
  · simp
  rcases k with _ | k
  · exact absurd hk (by have := (decodeRuneInString_size s0 s).1; omega)
  rw [List.take_succ_cons]
  cases hf : first s0 with
  | ascii => simp only [decodeRuneInString, hf]
  | invalid => simp only [decodeRuneInString, hf]
  | multi sz lo hi =>
    by_cases hk' : sz - 1 ≤ k
    · rw [← decodeRuneInString_take_size hf, List.take_take, Nat.min_eq_left hk',
        decodeRuneInString_take_size hf]
    · have hshort : (s.take k).length + 1 < sz := by
        have := List.length_take_le k s
        omega
      have hfail : decodeRuneInString (s0 :: s.take k) = (runeError, 1) := by
        simp only [decodeRuneInString, hf, if_pos hshort]
      rcases decodeRuneInString_multi (s := s) hf with h | ⟨h, -⟩
      · rw [hfail, h]
      · omega

/-- The bytes of a longer encoding after the first are continuation bytes, and the
first is not. -/
theorem decodeRuneInString_continuation {s0 : Byte} {s : List Byte}
    (h : 2 ≤ (decodeRuneInString (s0 :: s)).2) :
    runeStart s0 = true ∧
      ∀ b ∈ s.take ((decodeRuneInString (s0 :: s)).2 - 1), runeStart b = false := by
  cases hf : first s0 with
  | ascii => simp only [decodeRuneInString, hf] at h; omega
  | invalid => simp only [decodeRuneInString, hf] at h; omega
  | multi sz lo hi =>
    obtain ⟨-, -, hlead, -⟩ := first_multi hf
    rcases decodeRuneInString_multi (s := s) hf with hrun | ⟨hsz, -, hcont⟩
    · rw [hrun] at h; omega
    refine ⟨?_, hsz ▸ hcont⟩
    cases hs : runeStart s0
    · have := (runeStart_eq_false_iff s0).mp hs
      simp only [hicb] at this
      omega
    · rfl

/-! ## The runes of a string -/

/-- The runes of `s` as `for range` and `DecodeRuneInString` see them: the bytes each
decoding step takes, from the front. -/
def runes (s : List Byte) : List (List Byte) :=
  if h : s = [] then [] else
    s.take (decodeRuneInString s).2 :: runes (s.drop (decodeRuneInString s).2)
termination_by s.length
decreasing_by
  obtain ⟨s0, t, rfl⟩ := List.exists_cons_of_ne_nil h
  have := (decodeRuneInString_size s0 t).1
  simp only [List.length_drop, List.length_cons]
  omega

theorem runes_of_ne_nil {s : List Byte} (h : s ≠ []) :
    runes s = s.take (decodeRuneInString s).2 :: runes (s.drop (decodeRuneInString s).2) := by
  rw [runes, dif_neg h]

@[simp] theorem runes_nil : runes [] = [] := by
  rw [runes, dif_pos rfl]

@[simp] theorem flatten_runes (s : List Byte) : (runes s).flatten = s := by
  induction s using runes.induct with
  | case1 => simp
  | case2 s h ih => rw [runes_of_ne_nil h, List.flatten_cons, ih, List.take_append_drop]

/-- The bytes of one rune as `runes` cuts them: decoding them alone takes them whole;
after the first they are continuation bytes, and the first is not one when there are
more. -/
structure IsRune (g : List Byte) : Prop where
  ne_nil : g ≠ []
  decode : (decodeRuneInString g).2 = g.length
  tail : ∀ b ∈ g.tail, runeStart b = false
  head : ∀ b ∈ g.head?, 2 ≤ g.length → runeStart b = true

/-- A prefix that holds the first rune decodes as the whole string. -/
theorem decodeRuneInString_append {u v : List Byte}
    (h : (decodeRuneInString (u ++ v)).2 ≤ u.length) :
    decodeRuneInString u = decodeRuneInString (u ++ v) := by
  simpa only [List.take_left] using decodeRuneInString_take (s := u ++ v) h

theorem isRune_take {s : List Byte} (hs : s ≠ []) :
    IsRune (s.take (decodeRuneInString s).2) := by
  obtain ⟨s0, s, rfl⟩ := List.exists_cons_of_ne_nil hs
  obtain ⟨h1, hle, -⟩ := decodeRuneInString_size s0 s
  obtain ⟨n, hn⟩ : ∃ n, (decodeRuneInString (s0 :: s)).2 = n + 1 :=
    ⟨(decodeRuneInString (s0 :: s)).2 - 1, by omega⟩
  have hlong : ∀ b ∈ s.take n, 2 ≤ (decodeRuneInString (s0 :: s)).2 := fun b hb => by
    have := List.length_pos_of_mem hb
    simp only [List.length_take] at this
    omega
  refine ⟨by simp [hn], ?_, ?_, ?_⟩
  · rw [decodeRuneInString_take le_rfl, List.length_take, List.length_cons]
    omega
  · rw [hn, List.take_succ_cons, List.tail_cons]
    intro b hb
    exact (decodeRuneInString_continuation (hlong b hb)).2 b (by rwa [hn])
  · rw [hn, List.take_succ_cons]
    rintro b ⟨⟩ hlen
    obtain ⟨b', hb'⟩ : ∃ b', b' ∈ s.take n := List.exists_mem_of_length_pos (by
      simp only [List.length_cons] at hlen; omega)
    exact (decodeRuneInString_continuation (hlong b' hb')).1

theorem IsRune.length_le {g : List Byte} (hg : IsRune g) : g.length ≤ utfMax := by
  obtain ⟨s0, s, rfl⟩ := List.exists_cons_of_ne_nil hg.ne_nil
  have := (decodeRuneInString_size s0 s).2.2
  rwa [hg.decode] at this

theorem isRune_of_mem_runes {s g : List Byte} (h : g ∈ runes s) : IsRune g := by
  induction s using runes.induct with
  | case1 => simp at h
  | case2 s hs ih =>
    rw [runes_of_ne_nil hs, List.mem_cons] at h
    rcases h with rfl | h
    · exact isRune_take hs
    · exact ih h

/-- A string that starts with a whole rune is that rune and the runes of the rest. -/
theorem runes_append {g t : List Byte} (hg : g ≠ [])
    (h : (decodeRuneInString (g ++ t)).2 = g.length) : runes (g ++ t) = g :: runes t := by
  rw [runes_of_ne_nil (by simp [hg]), h, List.take_left, List.drop_left]

/-- A string that decodes whole is one rune. -/
theorem runes_eq_singleton {t : List Byte} (ht : t ≠ [])
    (h : (decodeRuneInString t).2 = t.length) : runes t = [t] := by
  simpa using runes_append (t := []) ht (by simpa using h)

/-- Cutting the runes of a string in two cuts the string at a rune boundary: each part
has exactly its own runes. -/
theorem runes_eq_append {s : List Byte} {A B : List (List Byte)} (h : runes s = A ++ B) :
    runes A.flatten = A ∧ runes B.flatten = B := by
  induction A generalizing s with
  | nil =>
    rw [List.nil_append] at h
    subst h
    simp
  | cons g A ih =>
    rcases eq_or_ne s [] with rfl | hs
    · simp at h
    rw [runes_of_ne_nil hs, List.cons_append, List.cons.injEq] at h
    obtain ⟨hg, hrest⟩ := h
    obtain ⟨hA, hB⟩ := ih hrest
    have hsplit : s = (g ++ A.flatten) ++ B.flatten := by
      rw [List.append_assoc, ← List.flatten_append, ← hrest, flatten_runes, ← hg,
        List.take_append_drop]
    have hw : (decodeRuneInString s).2 = g.length := by
      rw [← hg, ← (isRune_take hs).decode, decodeRuneInString_take le_rfl]
    have hdec : decodeRuneInString (g ++ A.flatten) = decodeRuneInString s := by
      conv_rhs => rw [hsplit]
      exact decodeRuneInString_append (by rw [← hsplit, hw, List.length_append]; omega)
    refine ⟨?_, hB⟩
    rw [List.flatten_cons, runes_append (hg ▸ (isRune_take hs).ne_nil) (by rw [hdec, hw]), hA]

/-- The first rune of the cut is what decoding the string takes. -/
theorem decodeRuneInString_of_runes {t g : List Byte} {rest : List (List Byte)}
    (h : runes t = g :: rest) :
    decodeRuneInString t = decodeRuneInString g ∧ (decodeRuneInString t).2 = g.length := by
  rcases eq_or_ne t [] with rfl | ht
  · simp at h
  rw [runes_of_ne_nil ht, List.cons.injEq] at h
  obtain ⟨rfl, -⟩ := h
  have := (isRune_take ht).decode
  rw [decodeRuneInString_take le_rfl] at this ⊢
  exact ⟨rfl, this⟩

/-- An ASCII byte is a rune of its own. -/
theorem runes_cons_ascii {c : Byte} (hc : c.toNat < runeSelf) (t : List Byte) :
    runes (c :: t) = [c] :: runes t := by
  simpa using runes_append (g := [c]) (t := t) (List.cons_ne_nil c [])
    (by rw [List.singleton_append, decodeRuneInString_cons_ascii hc]; rfl)

/-- Every byte that `RuneStart` accepts begins a rune. -/
theorem runes_boundary {s X Y : List Byte} {c : Byte} (hs : s = X ++ c :: Y)
    (hc : runeStart c = true) : ∃ A B, runes s = A ++ B ∧ A.flatten = X := by
  induction s using runes.induct generalizing X with
  | case1 => simp at hs
  | case2 s hne ih =>
    have hcut : X ++ c :: Y = s.take (decodeRuneInString s).2 ++ s.drop (decodeRuneInString s).2 :=
      hs.symm.trans (List.take_append_drop _ s).symm
    rcases List.append_eq_append_iff.mp hcut with ⟨a, hg, hrest⟩ | ⟨c', hX, hrest⟩
    · cases a with
      | nil =>
        refine ⟨[s.take (decodeRuneInString s).2], runes (s.drop (decodeRuneInString s).2),
          by rw [runes_of_ne_nil hne]; rfl, by simpa using hg⟩
      | cons a a' =>
        obtain ⟨rfl, -⟩ := List.cons.inj hrest
        cases X with
        | nil => exact ⟨[], runes s, rfl, rfl⟩
        | cons x X =>
          have := (isRune_take hne).tail c (by rw [hg]; simp)
          simp [hc] at this
    · obtain ⟨A, B, hAB, hA⟩ := ih hrest
      exact ⟨s.take (decodeRuneInString s).2 :: A, B,
        by rw [runes_of_ne_nil hne, hAB]; rfl, by rw [List.flatten_cons, hA, hX]⟩

/-- An ASCII byte at the end is a rune of its own. -/
theorem runes_append_ascii {c : Byte} (hc : c.toNat < runeSelf) (t : List Byte) :
    runes (t ++ [c]) = runes t ++ [[c]] := by
  have hstart : runeStart c = true := by
    cases h : runeStart c
    · have := (runeStart_eq_false_iff c).mp h
      simp only [runeSelf, locb] at hc this
      omega
    · rfl
  obtain ⟨A, B, hAB, hA⟩ := runes_boundary (X := t) (Y := []) rfl hstart
  have hB : B.flatten = [c] := by
    have := congrArg List.flatten hAB
    rw [flatten_runes, List.flatten_append, hA] at this
    exact (List.append_cancel_left this).symm
  have hsingle : runes [c] = [[c]] :=
    runes_eq_singleton (List.cons_ne_nil c []) (by rw [decodeRuneInString_cons_ascii hc]; rfl)
  have hB' : B = [[c]] := by rw [← (runes_eq_append hAB).2, hB, hsingle]
  rw [hAB, hB', ← hA, (runes_eq_append hAB).1]

/-! ## Decoding from the back -/

/-- The loop `for start--; start >= lim; start-- { if RuneStart(s[start]) { break } }` of
`DecodeLastRuneInString` with the clamp `if start < 0 { start = 0 }` after it. It is
entered with `start` before its first decrement, so that `0` stands for the `-1` the
loop can reach. -/
def scanStart (s : List Byte) (lim : Nat) : Nat → Nat
  | 0 => 0
  | start + 1 =>
    if start < lim then start
    else if runeStart (s.getD start 0) then start
    else scanStart s lim start

/-- `utf8.DecodeLastRuneInString`: the last rune of `s` and the number of bytes it
takes, found by walking back at most `UTFMax` bytes to a byte `RuneStart` accepts and
decoding forwards from there. -/
def decodeLastRuneInString (s : List Byte) : Nat × Nat :=
  match s.getLast? with
  | none => (runeError, 0)
  | some b =>
    if b.toNat < runeSelf then (b.toNat, 1) else
    let start := scanStart s (s.length - utfMax) (s.length - 1)
    let d := decodeRuneInString (s.drop start)
    if start + d.2 ≠ s.length then (runeError, 1) else d

example : decodeLastRuneInString [0x41, 0xE2, 0x80, 0xA8] = (0x2028, 3) := by decide

example : decodeLastRuneInString [0xE2, 0x80, 0xA8, 0x80] = (runeError, 1) := by decide

theorem scanStart_lt {s : List Byte} {lim j : Nat} (h : 0 < j) : scanStart s lim j < j := by
  induction j with
  | zero => omega
  | succ j ih =>
    simp only [scanStart]
    split_ifs
    · omega
    · omega
    · rcases Nat.eq_zero_or_pos j with rfl | hj
      · simp [scanStart]
      · exact (ih hj).trans (Nat.lt_succ_self j)

/-- Where the walk back stops: at the start of the string, below the limit, or on a
byte `RuneStart` accepts. -/
theorem scanStart_cases (s : List Byte) (lim j : Nat) :
    scanStart s lim j = 0 ∨ scanStart s lim j < lim ∨
      runeStart (s.getD (scanStart s lim j) 0) = true := by
  induction j with
  | zero => exact .inl rfl
  | succ j ih =>
    simp only [scanStart]
    split_ifs with hlim hstart
    · exact .inr (.inl hlim)
    · exact .inr (.inr hstart)
    · exact ih

/-- The walk back stops at the first byte `RuneStart` accepts. -/
theorem scanStart_found {s : List Byte} {lim j k : Nat} (hk : runeStart (s.getD k 0) = true)
    (hlim : lim ≤ k) (hkj : k < j)
    (hbetween : ∀ p, k < p → p < j → runeStart (s.getD p 0) = false) :
    scanStart s lim j = k := by
  induction j with
  | zero => omega
  | succ j ih =>
    simp only [scanStart]
    rcases Nat.lt_or_eq_of_le (Nat.le_of_lt_succ hkj) with hlt | rfl
    · rw [if_neg (by omega), hbetween j hlt (Nat.lt_succ_self j), if_neg (by simp)]
      exact ih hlt fun p hp hpj => hbetween p hp (Nat.lt_succ_of_lt hpj)
    · rw [if_neg (by omega), if_pos hk]

/-- A position at a rune boundary from which the rest of the string decodes whole is
the start of the last rune. -/
theorem drop_eq_of_boundary {s g : List Byte} {segs : List (List Byte)} {k : Nat}
    (h : runes s = segs ++ [g]) (hk : k < s.length)
    (hbound : k = 0 ∨ runeStart (s.getD k 0) = true)
    (hwhole : k + (decodeRuneInString (s.drop k)).2 = s.length) : s.drop k = g := by
  obtain ⟨A, B, hAB, hA⟩ : ∃ A B, runes s = A ++ B ∧ A.flatten = s.take k := by
    rcases hbound with rfl | hstart
    · exact ⟨[], runes s, rfl, by simp⟩
    · have hc : runeStart s[k] = true := by
        rwa [List.getD_eq_getElem?_getD, List.getElem?_eq_getElem hk, Option.getD_some] at hstart
      exact runes_boundary (Y := s.drop (k + 1))
        (by rw [← List.drop_eq_getElem_cons hk, List.take_append_drop]) hc
  have hB : B.flatten = s.drop k := by
    have := congrArg List.flatten hAB
    rw [flatten_runes, List.flatten_append, hA] at this
    exact List.append_cancel_left (this.symm.trans (List.take_append_drop k s).symm)
  have hdrop : runes (s.drop k) = [s.drop k] :=
    runes_eq_singleton (by simp; omega) (by simp; omega)
  have hB' : B = [s.drop k] := by rw [← (runes_eq_append hAB).2, hB, hdrop]
  rw [h, hB'] at hAB
  exact (List.cons.inj (List.append_inj_right' hAB rfl)).1.symm

/-- Where the walk back from the end stops, a decoding that reaches the end of the string
starts the last rune: the walk stopped at the start of the string or on a byte `RuneStart`
accepts, since below the limit no decoding reaches the end. -/
theorem drop_scanStart {s g : List Byte} {segs : List (List Byte)} (h : runes s = segs ++ [g])
    (hwhole : scanStart s (s.length - utfMax) (s.length - 1) +
      (decodeRuneInString (s.drop (scanStart s (s.length - utfMax) (s.length - 1)))).2 =
        s.length) :
    s.drop (scanStart s (s.length - utfMax) (s.length - 1)) = g := by
  have hne : s ≠ [] := by
    rintro rfl
    simp at h
  have hpos := List.length_pos.mpr hne
  have hlt : scanStart s (s.length - utfMax) (s.length - 1) < s.length := by
    rcases Nat.eq_zero_or_pos (s.length - 1) with h0 | hpos
    · rw [h0, scanStart]
      omega
    · exact (scanStart_lt hpos).trans_le (Nat.sub_le _ _)
  generalize hstart : scanStart s (s.length - utfMax) (s.length - 1) = start at hlt hwhole ⊢
  refine drop_eq_of_boundary h hlt ?_ hwhole
  rcases hstart ▸ scanStart_cases s (s.length - utfMax) (s.length - 1) with h0 | hlim | hrs
  · exact .inl h0
  · obtain ⟨x, t, hxt⟩ := List.exists_cons_of_ne_nil (by simp; omega : s.drop start ≠ [])
    have := (decodeRuneInString_size x t).2.2
    rw [← hxt] at this
    simp only [utfMax] at this hlim
    omega
  · exact .inr hrs

/-- Walking back from the end of a string whose last rune has two bytes or more stops at the
first byte of that rune. -/
theorem scanStart_last {s g : List Byte} {segs : List (List Byte)} (h : runes s = segs ++ [g])
    (hg2 : 2 ≤ g.length) :
    scanStart s (s.length - utfMax) (s.length - 1) = segs.flatten.length := by
  have hg : IsRune g := isRune_of_mem_runes (by rw [h]; simp)
  have hs : s = segs.flatten ++ g := by rw [← flatten_runes s, h]; simp
  have hlen : s.length = segs.flatten.length + g.length := by rw [hs, List.length_append]
  have hle : g.length ≤ utfMax := hg.length_le
  have hbyte : ∀ q, s.getD (segs.flatten.length + q) 0 = g.getD q 0 := fun q => by
    rw [hs, List.getD_eq_getElem?_getD, List.getElem?_append_right (by omega),
      Nat.add_sub_cancel_left, List.getD_eq_getElem?_getD]
  obtain ⟨g0, gt, rfl⟩ := List.exists_cons_of_ne_nil hg.ne_nil
  refine scanStart_found ?_ (by omega) (by omega) fun p hp hpj => ?_
  · rw [← Nat.add_zero segs.flatten.length, hbyte, List.getD_cons_zero]
    exact hg.head g0 rfl hg2
  · -- every byte the walk crosses is a continuation byte of the last rune
    obtain ⟨q, rfl⟩ : ∃ q, p = segs.flatten.length + (q + 1) :=
      ⟨p - segs.flatten.length - 1, by omega⟩
    have hq : q < gt.length := by
      simp only [List.length_cons] at hlen
      omega
    rw [hbyte, List.getD_cons_succ, List.getD_eq_getElem?_getD, List.getElem?_eq_getElem hq,
      Option.getD_some]
    exact hg.tail _ (List.getElem_mem hq)

/-- `DecodeLastRuneInString` returns exactly the last rune of the cut from the front. -/
theorem decodeLastRuneInString_runes {s g : List Byte} {segs : List (List Byte)}
    (h : runes s = segs ++ [g]) : decodeLastRuneInString s = decodeRuneInString g := by
  have hg : IsRune g := isRune_of_mem_runes (by rw [h]; simp)
  have hs : s = segs.flatten ++ g := by rw [← flatten_runes s, h]; simp
  obtain ⟨g', b, rfl⟩ : ∃ g' b, g = g' ++ [b] := by
    rcases List.eq_nil_or_concat g with hnil | ⟨g', b, hgb⟩
    · exact absurd hnil hg.ne_nil
    · exact ⟨g', b, by rw [hgb, List.concat_eq_append]⟩
  have hlast : s.getLast? = some b := by rw [hs, ← List.append_assoc, List.getLast?_concat]
  unfold decodeLastRuneInString
  rw [hlast]
  dsimp only
  by_cases hascii : b.toNat < runeSelf
  · -- an ASCII byte is no continuation byte, so it is a rune of its own
    obtain rfl : g' = [] := by
      cases g' with
      | nil => rfl
      | cons x g' =>
        have := (runeStart_eq_false_iff b).mp (hg.tail b (by simp))
        simp only [runeSelf, locb] at hascii this
        omega
    rw [if_pos hascii, List.nil_append, decodeRuneInString_cons_ascii hascii]
  rw [if_neg hascii]
  cases g' with
  | nil =>
    -- a byte that starts no encoding decodes to `RuneError` on either branch
    have hsingle := decodeRuneInString_singleton (b := b) (by omega)
    rw [List.nil_append, hsingle]
    split_ifs with hne
    · rfl
    · rw [drop_scanStart h (not_not.mp hne), List.nil_append, hsingle]
  | cons g0 gt =>
    have hfound := scanStart_last h (by simp)
    have hdrop : s.drop (segs.flatten.length) = g0 :: gt ++ [b] := by rw [hs, List.drop_left]
    have hwhole : segs.flatten.length + (g0 :: gt ++ [b]).length = s.length := by
      rw [hs]
      exact (List.length_append _ _).symm
    rw [hfound, hdrop, hg.decode, if_neg (not_not.mpr hwhole)]

/-- The last rune of a non-empty string, with the runes before it. -/
theorem runes_eq_concat {s : List Byte} (h : s ≠ []) :
    ∃ segs g, runes s = segs ++ [g] := by
  rcases List.eq_nil_or_concat (runes s) with hnil | ⟨segs, g, hg⟩
  · exact absurd (by rw [← flatten_runes s, hnil]; rfl) h
  · exact ⟨segs, g, by rw [hg, List.concat_eq_append]⟩

/-- Walking back from the end of a non-empty string takes at least one byte. -/
theorem decodeLastRuneInString_size_pos {s : List Byte} (h : s ≠ []) :
    0 < (decodeLastRuneInString s).2 := by
  obtain ⟨segs, g, hsg⟩ := runes_eq_concat h
  have hg : IsRune g := isRune_of_mem_runes (by rw [hsg]; simp)
  rw [decodeLastRuneInString_runes hsg, hg.decode]
  exact List.length_pos.mpr hg.ne_nil

end Backhaul.Utf8
