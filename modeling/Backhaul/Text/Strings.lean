import Backhaul.Text.Utf8
import Mathlib.Data.List.DropRight

/-!
# `strings.TrimSpace` and `strings.Split`

`parsePortMappings` trims each side of a mapping with `strings.TrimSpace`. Like
`unicode/utf8`, the package `strings` and `unicode.IsSpace` are Go's, not the
snapshot's; they are modelled from their source: `TrimSpace` runs a loop over ASCII bytes
from the front and one from the back, and hands the string to `TrimFunc` or
`TrimRightFunc` at the first byte that is not ASCII; those walk the runes forwards
(`indexFunc`) or backwards (`lastIndexFunc`, with `DecodeLastRuneInString`).

Over the cut of `Utf8.runes`, all of this is one thing: `TrimSpace` keeps the runes
between the leading and the trailing runes that `unicode.IsSpace` accepts
(`trimSpace_eq`), as `TrimFunc` does (`trimFunc_eq`). Its result is therefore a slice of its
argument that it leaves alone (`trimSpace_trimSpace`), whatever the bytes.

`parsePortMappings` cuts a mapping with `strings.Split` at `"="`. At a one-byte separator
Go counts the separators and then cuts at `IndexByte` once per separator; the last section
shows that this is `List.splitOn`, which the port-mapping model uses.
-/

namespace Backhaul.Strings

open Utf8

/-- `unicode.IsSpace`: the Latin-1 spaces, and above them the rest of Unicode's
`White_Space`. -/
def isSpace (r : Nat) : Bool :=
  if r ≤ 0xFF then
    r == 0x09 || r == 0x0A || r == 0x0B || r == 0x0C || r == 0x0D || r == 0x20 ||
      r == 0x85 || r == 0xA0
  else
    r == 0x1680 || (0x2000 ≤ r && r ≤ 0x200A) || r == 0x2028 || r == 0x2029 ||
      r == 0x202F || r == 0x205F || r == 0x3000

/-- The table `strings.asciiSpace`. -/
def asciiSpace (c : Byte) : Bool :=
  c.toNat == 0x09 || c.toNat == 0x0A || c.toNat == 0x0B || c.toNat == 0x0C ||
    c.toNat == 0x0D || c.toNat == 0x20

set_option maxRecDepth 4000 in
/-- On ASCII bytes the table and `unicode.IsSpace` agree. -/
theorem isSpace_of_lt (c : Byte) : c.toNat < runeSelf → isSpace c.toNat = asciiSpace c := by
  revert c
  apply byte_forall
  decide

/-- Whether a rune, given by its bytes, is a space. -/
def spaceRune (g : List Byte) : Bool := isSpace (decodeRuneInString g).1

/-! ## Walking the runes -/

/-- `strings.indexFunc`: the index of the first rune `r` of `s` with `f r = truth`, the
runes decoded as `for i, r := range s` does. -/
def indexFunc (s : List Byte) (f : Nat → Bool) (truth : Bool) : Option Nat :=
  if h : s = [] then none
  else if f (decodeRuneInString s).1 = truth then some 0
  else (indexFunc (s.drop (decodeRuneInString s).2) f truth).map
    ((decodeRuneInString s).2 + ·)
termination_by s.length
decreasing_by
  obtain ⟨s0, t, rfl⟩ := List.exists_cons_of_ne_nil h
  have := (decodeRuneInString_size s0 t).1
  simp only [List.length_drop, List.length_cons]
  omega

/-- `strings.lastIndexFunc`: the index of the last rune `r` of `s` with `f r = truth`,
walking back from the end with `DecodeLastRuneInString`. -/
def lastIndexFunc (s : List Byte) (f : Nat → Bool) (truth : Bool) : Option Nat :=
  if h : s = [] then none
  else if f (decodeLastRuneInString s).1 = truth then
    some (s.length - (decodeLastRuneInString s).2)
  else lastIndexFunc (s.take (s.length - (decodeLastRuneInString s).2)) f truth
termination_by s.length
decreasing_by
  have := decodeLastRuneInString_size_pos h
  have := List.length_pos.mpr h
  simp only [List.length_take]
  omega

/-- `strings.TrimLeftFunc`: drop the leading runes `f` accepts. -/
def trimLeftFunc (s : List Byte) (f : Nat → Bool) : List Byte :=
  match indexFunc s f false with
  | none => []
  | some i => s.drop i

/-- `strings.TrimRightFunc`: cut after the last rune `f` rejects, measuring a rune that
does not start with an ASCII byte again by decoding it forwards; `none` is Go's `-1`,
which `i++` turns into an empty result. -/
def trimRightFunc (s : List Byte) (f : Nat → Bool) : List Byte :=
  match lastIndexFunc s f false with
  | none => []
  | some i =>
    if runeSelf ≤ (s.getD i 0).toNat then s.take (i + (decodeRuneInString (s.drop i)).2)
    else s.take (i + 1)

/-- `strings.TrimFunc`. -/
def trimFunc (s : List Byte) (f : Nat → Bool) : List Byte :=
  trimRightFunc (trimLeftFunc s f) f

/-- The second loop of `strings.TrimSpace`, over `s[start:stop]` read from its end (the
argument is that slice reversed): it drops ASCII spaces and hands the slice to
`TrimRightFunc` at a byte that is not ASCII. -/
def trimSpaceRight : List Byte → List Byte
  | [] => []
  | c :: rev =>
    if runeSelf ≤ c.toNat then trimRightFunc (c :: rev).reverse isSpace
    else if asciiSpace c then trimSpaceRight rev
    else (c :: rev).reverse

/-- `strings.TrimSpace`: its first loop drops ASCII spaces from the front and hands the
rest to `TrimFunc` at a byte that is not ASCII; from the first other byte on, its second
loop, `trimSpaceRight`, works from the back. -/
def trimSpace : List Byte → List Byte
  | [] => []
  | c :: s =>
    if runeSelf ≤ c.toNat then trimFunc (c :: s) isSpace
    else if asciiSpace c then trimSpace s
    else trimSpaceRight (c :: s).reverse

example : trimSpace [0x20, 0x38, 0x30, 0x09] = [0x38, 0x30] := by decide

/-! ## What the walks keep -/

/-- A list is what `rdropWhile` keeps of it followed by what `rtakeWhile` takes. -/
theorem rdropWhile_append_rtakeWhile {α : Type} (p : α → Bool) (l : List α) :
    l.rdropWhile p ++ l.rtakeWhile p = l := by
  rw [List.rdropWhile, List.rtakeWhile, ← List.reverse_append,
    List.takeWhile_append_dropWhile, List.reverse_reverse]

/-- `TrimLeftFunc` drops exactly the leading runes `f` accepts. -/
theorem trimLeftFunc_eq (s : List Byte) (f : Nat → Bool) :
    trimLeftFunc s f = ((runes s).dropWhile fun g => f (decodeRuneInString g).1).flatten := by
  induction s using runes.induct with
  | case1 => simp [trimLeftFunc, indexFunc]
  | case2 s hs ih =>
    rw [runes_of_ne_nil hs, List.dropWhile_cons, decodeRuneInString_take le_rfl]
    unfold trimLeftFunc at ih ⊢
    rw [indexFunc, dif_neg hs]
    cases hf : f (decodeRuneInString s).1
    · simp [hf]
    · simp only [Bool.true_eq_false, if_false, if_true, ← ih]
      cases indexFunc (s.drop (decodeRuneInString s).2) f false <;> simp [List.drop_drop]

theorem lastIndexFunc_of_ne_nil {s : List Byte} (h : s ≠ []) (f : Nat → Bool) (truth : Bool) :
    lastIndexFunc s f truth =
      if f (decodeLastRuneInString s).1 = truth then some (s.length - (decodeLastRuneInString s).2)
      else lastIndexFunc (s.take (s.length - (decodeLastRuneInString s).2)) f truth := by
  rw [lastIndexFunc, dif_neg h]

/-- The walk back at the last rune `x`: it stops there when `f` answers `truth`, at the
index where the bytes of `x` start. -/
theorem lastIndexFunc_concat_pos {s x : List Byte} {segs : List (List Byte)} {f : Nat → Bool}
    {truth : Bool} (h : runes s = segs ++ [x]) (hx : f (decodeRuneInString x).1 = truth) :
    lastIndexFunc s f truth = some segs.flatten.length := by
  have hrun : IsRune x := isRune_of_mem_runes (by rw [h]; simp)
  have hs : s = segs.flatten ++ x := by rw [← flatten_runes s, h]; simp
  rw [lastIndexFunc_of_ne_nil (by simp [hs, hrun.ne_nil]), decodeLastRuneInString_runes h,
    if_pos hx, hrun.decode, hs, List.length_append, Nat.add_sub_cancel]

/-- The walk back at the last rune `x`: otherwise it goes on over the runes before `x`. -/
theorem lastIndexFunc_concat_neg {s x : List Byte} {segs : List (List Byte)} {f : Nat → Bool}
    {truth : Bool} (h : runes s = segs ++ [x]) (hx : f (decodeRuneInString x).1 ≠ truth) :
    lastIndexFunc s f truth = lastIndexFunc segs.flatten f truth := by
  have hrun : IsRune x := isRune_of_mem_runes (by rw [h]; simp)
  have hs : s = segs.flatten ++ x := by rw [← flatten_runes s, h]; simp
  rw [lastIndexFunc_of_ne_nil (by simp [hs, hrun.ne_nil]), decodeLastRuneInString_runes h,
    if_neg hx, hrun.decode, hs, List.length_append, Nat.add_sub_cancel, List.take_left]

/-- Walking back from the end finds the last rune `r` with `f r = truth`, at the index
where its bytes start. -/
theorem lastIndexFunc_runes {s g : List Byte} {A B : List (List Byte)} {f : Nat → Bool}
    {truth : Bool} (h : runes s = A ++ g :: B) (hg : f (decodeRuneInString g).1 = truth)
    (hB : ∀ x ∈ B, f (decodeRuneInString x).1 ≠ truth) :
    lastIndexFunc s f truth = some A.flatten.length := by
  induction B using List.reverseRecOn generalizing s with
  | nil => exact lastIndexFunc_concat_pos h hg
  | append_singleton B x ih =>
    have hcut : runes s = (A ++ g :: B) ++ [x] := by rw [h]; simp
    rw [lastIndexFunc_concat_neg hcut (hB x (by simp))]
    exact ih (runes_eq_append hcut).1 fun y hy => hB y (by simp [hy])

/-- With no rune `r` with `f r = truth`, the walk back finds none. -/
theorem lastIndexFunc_none {s : List Byte} {f : Nat → Bool} {truth : Bool}
    (h : ∀ x ∈ runes s, f (decodeRuneInString x).1 ≠ truth) : lastIndexFunc s f truth = none := by
  generalize hsegs : runes s = segs at h
  induction segs using List.reverseRecOn generalizing s with
  | nil =>
    have : s = [] := by rw [← flatten_runes s, hsegs]; rfl
    rw [this, lastIndexFunc, dif_pos rfl]
  | append_singleton segs x ih =>
    rw [lastIndexFunc_concat_neg hsegs (h x (by simp))]
    exact ih (runes_eq_append hsegs).1 fun y hy => h y (by simp [hy])

/-- `TrimRightFunc` drops exactly the trailing runes `f` accepts. -/
theorem trimRightFunc_eq (s : List Byte) (f : Nat → Bool) :
    trimRightFunc s f =
      ((runes s).rdropWhile fun g => f (decodeRuneInString g).1).flatten := by
  set p : List Byte → Bool := fun g => f (decodeRuneInString g).1 with hp
  have hsplit := rdropWhile_append_rtakeWhile p (runes s)
  generalize hB : (runes s).rtakeWhile p = B at hsplit
  have hB' : ∀ x ∈ B, p x := fun x hx => List.mem_rtakeWhile_imp (hB ▸ hx)
  unfold trimRightFunc
  rcases List.eq_nil_or_concat ((runes s).rdropWhile p) with hnil | ⟨A, g, hAg⟩
  · have hall := List.rdropWhile_eq_nil_iff.mp hnil
    rw [hnil, lastIndexFunc_none fun x hx => by simpa [hp] using hall x hx]
    rfl
  rw [List.concat_eq_append] at hAg
  have hkeep : ¬ p g := by
    simpa [hAg] using List.rdropWhile_last_not p (runes s) (by rw [hAg]; simp)
  have hcut : runes s = A ++ g :: B := by rw [← hsplit, hAg]; simp
  rw [lastIndexFunc_runes hcut (by simpa [hp] using hkeep) fun x hx => by simpa [hp] using hB' x hx,
    hAg]
  have hrun : IsRune g := isRune_of_mem_runes (by rw [hcut]; simp)
  have hs : s = A.flatten ++ (g ++ B.flatten) := by rw [← flatten_runes s, hcut]; simp
  obtain ⟨g0, gt, rfl⟩ := List.exists_cons_of_ne_nil hrun.ne_nil
  have hhead : s.getD A.flatten.length 0 = g0 := by
    rw [hs, List.getD_eq_getElem?_getD, List.getElem?_append_right le_rfl, Nat.sub_self,
      List.cons_append, List.getElem?_cons_zero, Option.getD_some]
  have hcut' : runes (s.drop A.flatten.length) = (g0 :: gt) :: B := by
    rw [hs, List.drop_left, ← List.flatten_cons]
    exact (runes_eq_append hcut).2
  have hlen : A.flatten.length + (g0 :: gt).length = (A ++ [g0 :: gt]).flatten.length := by simp
  have htake : s.take (A ++ [g0 :: gt]).flatten.length = (A ++ [g0 :: gt]).flatten := by
    rw [hs, ← List.append_assoc, List.take_left' (by simp)]
    simp
  -- whichever branch measures the rune at the index, it measures the rune `g` of the cut
  dsimp only
  split_ifs with hself
  · rw [(decodeRuneInString_of_runes hcut').2, hlen, htake]
  · rw [hhead] at hself
    have hone : (g0 :: gt).length = 1 := by
      rw [← hrun.decode, decodeRuneInString_cons_ascii (by omega)]
    rw [← hone, hlen, htake]

/-- `TrimFunc` keeps the runes between the leading and the trailing runes `f` accepts. -/
theorem trimFunc_eq (s : List Byte) (f : Nat → Bool) :
    trimFunc s f = ((((runes s).dropWhile fun g => f (decodeRuneInString g).1).rdropWhile
      fun g => f (decodeRuneInString g).1)).flatten := by
  have hsuffix := (runes_eq_append (List.takeWhile_append_dropWhile
    (fun g => f (decodeRuneInString g).1) (runes s)).symm).2
  rw [trimFunc, trimLeftFunc_eq, trimRightFunc_eq, hsuffix]

/-! ## `TrimSpace` over the runes -/

theorem spaceRune_singleton {c : Byte} (hc : c.toNat < runeSelf) :
    spaceRune [c] = asciiSpace c := by
  rw [spaceRune, decodeRuneInString_cons_ascii hc, isSpace_of_lt c hc]

/-- The back loop of `TrimSpace` drops exactly the trailing space runes of its slice. -/
theorem trimSpaceRight_eq (s : List Byte) :
    trimSpaceRight s.reverse = ((runes s).rdropWhile spaceRune).flatten := by
  induction s using List.reverseRecOn with
  | nil => simp [trimSpaceRight]
  | append_singleton t c ih =>
    rw [List.reverse_append, List.reverse_singleton, List.singleton_append, trimSpaceRight]
    by_cases hself : runeSelf ≤ c.toNat
    · rw [if_pos hself, List.reverse_cons, List.reverse_reverse, trimRightFunc_eq]
      rfl
    have hc : c.toNat < runeSelf := by omega
    rw [if_neg hself, runes_append_ascii hc]
    cases hsp : asciiSpace c
    · rw [List.rdropWhile_concat_neg _ _ _ (by simp [spaceRune_singleton hc, hsp])]
      simp
    · rw [if_pos rfl, ih, List.rdropWhile_concat_pos _ _ _ (by rw [spaceRune_singleton hc, hsp])]

/-- `TrimSpace` keeps the runes between the leading and the trailing space runes. -/
theorem trimSpace_eq (s : List Byte) :
    trimSpace s = (((runes s).dropWhile spaceRune).rdropWhile spaceRune).flatten := by
  induction s with
  | nil => simp [trimSpace]
  | cons c s ih =>
    rw [trimSpace]
    by_cases hself : runeSelf ≤ c.toNat
    · rw [if_pos hself, trimFunc_eq]
      rfl
    have hc : c.toNat < runeSelf := by omega
    rw [if_neg hself, runes_cons_ascii hc, List.dropWhile_cons, spaceRune_singleton hc]
    cases hsp : asciiSpace c
    · simp only [Bool.false_eq_true, if_false]
      rw [trimSpaceRight_eq, runes_cons_ascii hc]
    · simp only [if_true, ih]

/-- The cut of a string is its leading space runes, the runes `TrimSpace` keeps, and its
trailing space runes. -/
theorem runes_eq_trimmed (s : List Byte) :
    runes s = (runes s).takeWhile spaceRune ++
      (((runes s).dropWhile spaceRune).rdropWhile spaceRune ++
        ((runes s).dropWhile spaceRune).rtakeWhile spaceRune) := by
  rw [rdropWhile_append_rtakeWhile, List.takeWhile_append_dropWhile]

theorem runes_trimSpace (s : List Byte) :
    runes (trimSpace s) = ((runes s).dropWhile spaceRune).rdropWhile spaceRune := by
  rw [trimSpace_eq]
  exact (runes_eq_append (runes_eq_append (runes_eq_trimmed s)).2).1

/-- What is left once the leading and then the trailing elements `p` accepts are dropped
starts with an element `p` rejects. -/
theorem dropWhile_rdropWhile_dropWhile {α : Type} (p : α → Bool) (l : List α) :
    ((l.dropWhile p).rdropWhile p).dropWhile p = (l.dropWhile p).rdropWhile p := by
  have hpre := List.rdropWhile_prefix p (l.dropWhile p)
  generalize (l.dropWhile p).rdropWhile p = K at hpre ⊢
  cases K with
  | nil => rfl
  | cons k K =>
    have hk := hpre.head (List.cons_ne_nil k K)
    rw [List.dropWhile_cons_of_neg]
    simpa [← hk] using List.head_dropWhile_not p l (hpre.ne_nil (List.cons_ne_nil k K))

/-- `TrimSpace` leaves what it returns alone. -/
theorem trimSpace_trimSpace (s : List Byte) : trimSpace (trimSpace s) = trimSpace s := by
  rw [trimSpace_eq (trimSpace s), runes_trimSpace, dropWhile_rdropWhile_dropWhile,
    List.rdropWhile_idempotent, ← trimSpace_eq]

/-- `TrimSpace` returns a slice of its argument. -/
theorem isInfix_trimSpace (s : List Byte) : trimSpace s <:+: s := by
  conv_rhs => rw [← flatten_runes s, runes_eq_trimmed s]
  rw [trimSpace_eq, List.flatten_append, List.flatten_append]
  exact List.infix_append' _ _ _

/-- On ASCII bytes none of which is a space, `TrimSpace` changes nothing. -/
theorem trimSpace_of_ascii {s : List Byte}
    (h : ∀ c ∈ s, c.toNat < runeSelf ∧ asciiSpace c = false) : trimSpace s = s := by
  rcases List.eq_nil_or_concat s with rfl | ⟨u, d, rfl⟩
  · rfl
  have hd := h d (by simp)
  obtain ⟨c, t, hct⟩ := List.exists_cons_of_ne_nil (List.concat_ne_nil d u)
  have hc := h c (by rw [hct]; simp)
  rw [hct, trimSpace, if_neg (show ¬runeSelf ≤ c.toNat by omega), hc.2, ← hct,
    List.concat_eq_append, List.reverse_append, List.reverse_singleton, List.singleton_append,
    trimSpaceRight, if_neg (show ¬runeSelf ≤ d.toNat by omega), hd.2]
  simp

/-- The loops of `TrimSpace` over ASCII bytes are a fast path: whatever the bytes, valid
UTF-8 or not, `TrimSpace` returns what `TrimFunc(s, unicode.IsSpace)` returns. -/
theorem trimSpace_eq_trimFunc (s : List Byte) : trimSpace s = trimFunc s isSpace := by
  rw [trimSpace_eq, trimFunc_eq]
  rfl

/-! ## `strings.Split` at one byte -/

/-- `strings.IndexByte`, which `strings.Index` calls for a one-byte separator: the index of
the first `c` in `s`, or `none` for Go's `-1`. -/
def indexByte : List Byte → Byte → Option Nat
  | [], _ => none
  | b :: s, c => if b = c then some 0 else (indexByte s c).map (· + 1)

/-- `strings.Count` at a one-byte separator, that is `bytealg.CountString`. -/
def countString (s : List Byte) (c : Byte) : Nat := s.count c

/-- The loop of `strings.genSplit(s, sep, 0, n)` at a one-byte `sep`: while slots are
left it cuts `s` at the next `sep`, and the rest fills the last slot. -/
def genSplitLoop (c : Byte) : Nat → List Byte → List (List Byte)
  | 0, s => [s]
  | k + 1, s =>
    match indexByte s c with
    | none => [s]
    | some m => s.take m :: genSplitLoop c k (s.drop (m + 1))

/-- `strings.Split(s, sep)` at a one-byte `sep`: `genSplit(s, sep, 0, -1)`, which makes
`Count(s, sep) + 1` slots, at most `len(s) + 1`. -/
def split (s : List Byte) (c : Byte) : List (List Byte) :=
  let n := countString s c + 1
  let n := if n > s.length + 1 then s.length + 1 else n
  genSplitLoop c (n - 1) s

/-- Where `IndexByte` finds `c`, `s` is cut there, with no `c` before it. -/
theorem indexByte_some {s : List Byte} {c : Byte} {m : Nat} (h : indexByte s c = some m) :
    c ∉ s.take m ∧ s = s.take m ++ c :: s.drop (m + 1) := by
  induction s generalizing m with
  | nil => cases h
  | cons b s ih =>
    rw [indexByte] at h
    split_ifs at h with hb
    · cases h
      simp [hb]
    · obtain ⟨m, hm, rfl⟩ := Option.map_eq_some'.mp h
      obtain ⟨hc, hs⟩ := ih hm
      refine ⟨by simp [Ne.symm hb, hc], ?_⟩
      conv_lhs => rw [hs]
      rfl

theorem indexByte_none {s : List Byte} {c : Byte} (h : indexByte s c = none) : c ∉ s := by
  induction s with
  | nil => exact List.not_mem_nil _
  | cons b s ih =>
    rw [indexByte] at h
    split_ifs at h with hb
    simp only [Option.map_eq_none'] at h
    simp [Ne.symm hb, ih h]

theorem splitOn_single_of_not_mem {s : List Byte} {c : Byte} (h : c ∉ s) : s.splitOn c = [s] :=
  List.splitOnP_eq_single (· == c) s fun x hx => by simpa using ne_of_mem_of_not_mem hx h

theorem splitOn_append_cons {A : List Byte} {c : Byte} (hA : c ∉ A) (rest : List Byte) :
    (A ++ c :: rest).splitOn c = A :: rest.splitOn c :=
  List.splitOnP_first (· == c) A (fun x hx => by simpa using ne_of_mem_of_not_mem hx hA) c
    (beq_self_eq_true c) rest

/-- Cutting at every `c` while slots are left: with as many slots as there are `c`, the loop
cuts as `List.splitOn` does. -/
theorem genSplitLoop_eq_splitOn {c : Byte} {k : Nat} {s : List Byte} (hk : s.count c ≤ k) :
    genSplitLoop c k s = s.splitOn c := by
  induction k generalizing s with
  | zero =>
    rw [genSplitLoop, splitOn_single_of_not_mem (List.count_eq_zero.mp (Nat.le_zero.mp hk))]
  | succ k ih =>
    rw [genSplitLoop]
    split
    · next hnone => rw [splitOn_single_of_not_mem (indexByte_none hnone)]
    · next m hm =>
      obtain ⟨hc, hs⟩ := indexByte_some hm
      have hcount : (s.drop (m + 1)).count c + 1 = s.count c := by
        conv_rhs => rw [hs]
        simp [List.count_append, List.count_eq_zero.mpr hc]
      conv_rhs => rw [hs, splitOn_append_cons hc]
      rw [ih (by omega)]

/-- `strings.Split` at one byte, as Go computes it (count the separators, then cut at
`IndexByte` that many times), returns what `List.splitOn` returns, for every string. -/
theorem split_eq_splitOn (s : List Byte) (c : Byte) : split s c = s.splitOn c := by
  have hle : s.count c ≤ s.length := List.count_le_length c s
  rw [split, countString, if_neg (by omega), Nat.add_sub_cancel]
  exact genSplitLoop_eq_splitOn le_rfl

end Backhaul.Strings
