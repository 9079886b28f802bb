import Backhaul.Text.Strings
import Backhaul.Text.Strconv

/-!
# Port mappings

Each server reads `config.Ports` in `parsePortMappings` and starts listeners on the addresses
of every mapping. The loop body is the same in the TCP, the TCP-mux and the WS-mux server
(`parsePortMapping`): `strings.Split` at `'='`; without an `'='` the text is a port,
read by `strconv.Atoi` and written back as `":port"` and `"port"`; otherwise the text
before the first `'='`, trimmed and given a `':'` in front when it is a number, and the
trimmed text up to the next `'='`. A mapping it cannot read ends the process (`Fatalf`).

What the body makes of a mapping depends only on the number of `'='` in it
(`parsePortMapping_cases`), and writing the addresses it returns back as `L=R` gives the
same addresses again (`parsePortMapping_reserialize`): `TrimSpace` leaves what it returns
alone, and an address that got its `':'` is no number any more.
-/

namespace Backhaul.Server

open Utf8 Strings Strconv

/-- The byte `'='` between the two sides of a mapping. -/
def equalsSign : Byte := 0x3D

/-- The byte `':'`. -/
def colon : Byte := 0x3A

/-- A goroutine that `parsePortMappings` starts for a mapping: `localListener`, or
`udpListener` on the TCP server with `AcceptUDP`. -/
inductive Listener
  | tcp
  | udp
  deriving DecidableEq, Repr

/-- The local address of a mapping with an `'='`: `TrimSpace(parts[0])`, with a `':'` in
front when `Atoi` accepts it (the `":3080"` format). -/
def localAddress (part : List Byte) : List Byte :=
  if (atoi (trimSpace part)).toBool then colon :: trimSpace part else trimSpace part

/-- The body of the loop of `parsePortMappings` for one `portMapping`, the same in the three
servers: the local and the remote address of its listeners, or `none` where it calls
`Fatalf`. `strings.Split` at one byte is `List.splitOn`, which never returns `[]`;
`fmt.Sprintf(":%d", port)` writes a `':'` and what `Itoa` writes. -/
def parsePortMapping (portMapping : List Byte) : Option (List Byte × List Byte) :=
  match portMapping.splitOn equalsSign with
  | [part] =>
    match atoi part with
    | .error _ => none
    | .ok port => some (colon :: itoa port, trimSpace (itoa port))
  | part0 :: part1 :: _ => some (localAddress part0, trimSpace part1)
  | [] => none

/-- The loop of `parsePortMappings` over `config.Ports`: the listeners it starts, `listeners`
for each mapping, with their local and remote address. `none` is the end of the process at a
mapping the body refuses. -/
def parsePortMappingsWith (listeners : List Listener) :
    List (List Byte) → Option (List (Listener × List Byte × List Byte))
  | [] => some []
  | portMapping :: ports => do
    let (localAddr, remoteAddr) ← parsePortMapping portMapping
    let rest ← parsePortMappingsWith listeners ports
    return listeners.map (fun l => (l, localAddr, remoteAddr)) ++ rest

/-- `TcpTransport.parsePortMappings`: a `localListener` for every mapping, and a
`udpListener` beside it with `AcceptUDP`. -/
def TcpTransport.parsePortMappings (acceptUDP : Bool) (ports : List (List Byte)) :
    Option (List (Listener × List Byte × List Byte)) :=
  parsePortMappingsWith (if acceptUDP then [.tcp, .udp] else [.tcp]) ports

/-- `TcpMuxTransport.parsePortMappings`: a `localListener` for every mapping. -/
def TcpMuxTransport.parsePortMappings (ports : List (List Byte)) :
    Option (List (Listener × List Byte × List Byte)) :=
  parsePortMappingsWith [.tcp] ports

/-- `WsMuxTransport.parsePortMappings`: a `localListener` for every mapping. -/
def WsMuxTransport.parsePortMappings (ports : List (List Byte)) :
    Option (List (Listener × List Byte × List Byte)) :=
  parsePortMappingsWith [.tcp] ports

/-! ## Splitting at `'='` -/

theorem splitOn_of_not_mem {s : List Byte} (h : equalsSign ∉ s) :
    s.splitOn equalsSign = [s] :=
  List.splitOnP_eq_single (· == equalsSign) s fun x hx => by simpa using ne_of_mem_of_not_mem hx h

theorem splitOn_first {A : List Byte} (hA : equalsSign ∉ A) (rest : List Byte) :
    (A ++ equalsSign :: rest).splitOn equalsSign = A :: rest.splitOn equalsSign :=
  List.splitOnP_first (· == equalsSign) A (fun x hx => by simpa using ne_of_mem_of_not_mem hx hA)
    equalsSign (beq_self_eq_true _) rest

/-- A string has no `'='`, or a first one. -/
theorem not_mem_or_first (s : List Byte) :
    equalsSign ∉ s ∨ ∃ A rest, equalsSign ∉ A ∧ s = A ++ equalsSign :: rest := by
  induction s with
  | nil => exact .inl (List.not_mem_nil _)
  | cons c s ih =>
    by_cases hc : c = equalsSign
    · exact .inr ⟨[], s, List.not_mem_nil _, by rw [hc]; rfl⟩
    rcases ih with hs | ⟨A, rest, hA, rfl⟩
    · exact .inl (by simp [Ne.symm hc, hs])
    · exact .inr ⟨c :: A, rest, by simp [Ne.symm hc, hA], rfl⟩

set_option maxRecDepth 4000 in
/-- A sign or a digit is an ASCII byte that is no space, no `'='` and no `':'`. -/
theorem isNumeral_plain (c : Byte) (h : isNumeral c = true) :
    (c.toNat < runeSelf ∧ asciiSpace c = false) ∧ c ≠ equalsSign ∧ c ≠ colon := by
  revert c
  apply byte_forall
  decide

theorem equalsSign_not_mem_of_numeral {t : List Byte} (h : ∀ c ∈ t, isNumeral c = true) :
    equalsSign ∉ t :=
  fun hm => (isNumeral_plain _ (h _ hm)).2.1 rfl

theorem trimSpace_of_numeral {t : List Byte} (h : ∀ c ∈ t, isNumeral c = true) :
    trimSpace t = t :=
  trimSpace_of_ascii fun c hc => (isNumeral_plain c (h c hc)).1

/-! ## The loop body, by the number of `'='` -/

theorem parsePortMapping_of_not_mem {s : List Byte} (h : equalsSign ∉ s) :
    parsePortMapping s = (atoi s).toOption.map fun n => (colon :: itoa n, itoa n) := by
  rw [parsePortMapping, splitOn_of_not_mem h]
  dsimp only
  cases atoi s with
  | error e => rfl
  | ok n =>
    dsimp only [Except.toOption, Option.map_some']
    rw [trimSpace_of_numeral (isNumeral_of_itoa n)]

theorem parsePortMapping_of_splitOn {s A B : List Byte} {rest : List (List Byte)}
    (h : s.splitOn equalsSign = A :: B :: rest) :
    parsePortMapping s = some (localAddress A, trimSpace B) := by
  rw [parsePortMapping, h]

theorem parsePortMapping_one_sep {A B : List Byte} (hA : equalsSign ∉ A) (hB : equalsSign ∉ B) :
    parsePortMapping (A ++ equalsSign :: B) = some (localAddress A, trimSpace B) :=
  parsePortMapping_of_splitOn (by rw [splitOn_first hA, splitOn_of_not_mem hB])

/-- With a second `'='`, the body reads up to it and drops the rest. -/
theorem parsePortMapping_two_sep {A B : List Byte} (hA : equalsSign ∉ A) (hB : equalsSign ∉ B)
    (C : List Byte) :
    parsePortMapping (A ++ equalsSign :: (B ++ equalsSign :: C)) =
      some (localAddress A, trimSpace B) :=
  parsePortMapping_of_splitOn (by rw [splitOn_first hA, splitOn_first hB])

/-- What the loop body can make of a mapping: without an `'='` it reads a port; with one, the
addresses come from the text before the first `'='` and the text after it, up to the next. -/
theorem parsePortMapping_cases (s : List Byte) :
    (equalsSign ∉ s ∧
      parsePortMapping s = (atoi s).toOption.map fun n => (colon :: itoa n, itoa n)) ∨
    ∃ A B, equalsSign ∉ A ∧ equalsSign ∉ B ∧
      parsePortMapping s = some (localAddress A, trimSpace B) := by
  rcases not_mem_or_first s with hs | ⟨A, rest, hA, rfl⟩
  · exact .inl ⟨hs, parsePortMapping_of_not_mem hs⟩
  rcases not_mem_or_first rest with hr | ⟨B, C, hB, rfl⟩
  · exact .inr ⟨A, rest, hA, hr, parsePortMapping_one_sep hA hr⟩
  · exact .inr ⟨A, B, hA, hB, parsePortMapping_two_sep hA hB C⟩

/-! ## Reading the addresses back -/

/-- No text that starts with `':'` is a number. -/
theorem atoi_colon (t : List Byte) : (atoi (colon :: t)).toBool = false := by
  cases h : atoi (colon :: t) with
  | error e => rfl
  | ok n => exact absurd (isNumeral_of_atoi h colon (List.mem_cons_self _ _)) (by decide)

/-- An address that got its `':'` in front of a number is read back unchanged. -/
theorem localAddress_colon {t : List Byte} (h : ∀ c ∈ t, isNumeral c = true) :
    localAddress (colon :: t) = colon :: t := by
  have htrim : trimSpace (colon :: t) = colon :: t := by
    refine trimSpace_of_ascii fun c hc => ?_
    rcases List.mem_cons.mp hc with rfl | hc
    · decide
    · exact (isNumeral_plain c (h c hc)).1
  rw [localAddress, htrim, atoi_colon, if_neg Bool.false_ne_true]

/-- The rule for the local address leaves its own result alone. -/
theorem localAddress_localAddress (part : List Byte) :
    localAddress (localAddress part) = localAddress part := by
  by_cases h : (atoi (trimSpace part)).toBool = true
  · have hl : localAddress part = colon :: trimSpace part := if_pos h
    cases hn : atoi (trimSpace part) with
    | error e =>
      rw [hn] at h
      cases h
    | ok n => rw [hl, localAddress_colon (isNumeral_of_atoi hn)]
  · have hl : localAddress part = trimSpace part := if_neg h
    rw [hl, localAddress, trimSpace_trimSpace, if_neg h]

theorem equalsSign_not_mem_trimSpace {A : List Byte} (h : equalsSign ∉ A) :
    equalsSign ∉ trimSpace A :=
  fun hm => h ((isInfix_trimSpace A).subset hm)

theorem equalsSign_not_mem_localAddress {A : List Byte} (h : equalsSign ∉ A) :
    equalsSign ∉ localAddress A := by
  unfold localAddress
  split_ifs
  · exact List.not_mem_cons_of_ne_of_not_mem (by decide) (equalsSign_not_mem_trimSpace h)
  · exact equalsSign_not_mem_trimSpace h

/-- The addresses the body returns, written back as `L=R`, are read as the same addresses. -/
theorem parsePortMapping_reserialize {s L R : List Byte} (h : parsePortMapping s = some (L, R)) :
    parsePortMapping (L ++ equalsSign :: R) = some (L, R) := by
  rcases parsePortMapping_cases s with ⟨-, hs⟩ | ⟨A, B, hA, hB, hs⟩
  · rw [hs] at h
    cases hn : atoi s with
    | error e =>
      rw [hn] at h
      cases h
    | ok n =>
      rw [hn] at h
      obtain ⟨rfl, rfl⟩ := Prod.mk.inj (Option.some.inj h)
      have hitoa := isNumeral_of_itoa n
      rw [parsePortMapping_one_sep (List.not_mem_cons_of_ne_of_not_mem (by decide)
          (equalsSign_not_mem_of_numeral hitoa)) (equalsSign_not_mem_of_numeral hitoa),
        localAddress_colon hitoa, trimSpace_of_numeral hitoa]
  · rw [hs] at h
    obtain ⟨rfl, rfl⟩ := Prod.mk.inj (Option.some.inj h)
    rw [parsePortMapping_one_sep (equalsSign_not_mem_localAddress hA)
      (equalsSign_not_mem_trimSpace hB), localAddress_localAddress, trimSpace_trimSpace]

/-! ## The servers' loop -/

/-- Two mappings the body reads alike start the same listeners, wherever they stand in
`config.Ports`. -/
theorem parsePortMappingsWith_congr (listeners : List Listener) {s s' : List Byte}
    (h : parsePortMapping s = parsePortMapping s') (pre post : List (List Byte)) :
    parsePortMappingsWith listeners (pre ++ s :: post) =
      parsePortMappingsWith listeners (pre ++ s' :: post) := by
  induction pre with
  | nil => simp only [List.nil_append, parsePortMappingsWith, h]
  | cons p pre ih =>
    rw [List.cons_append, List.cons_append, parsePortMappingsWith, parsePortMappingsWith, ih]

/-- Every mapping the servers accept, written back as `L=R` from the addresses `(L, R)` it
gives, is accepted with the same addresses, and in the TCP, the TCP-mux and the WS-mux server
it starts the same listeners wherever it stands in `config.Ports`. -/
theorem parsePortMappings_reserialized {s L R : List Byte}
    (h : parsePortMapping s = some (L, R)) :
    parsePortMapping (L ++ equalsSign :: R) = some (L, R) ∧
    ∀ pre post : List (List Byte),
      (∀ acceptUDP, TcpTransport.parsePortMappings acceptUDP (pre ++ (L ++ equalsSign :: R) :: post) =
        TcpTransport.parsePortMappings acceptUDP (pre ++ s :: post)) ∧
      TcpMuxTransport.parsePortMappings (pre ++ (L ++ equalsSign :: R) :: post) =
        TcpMuxTransport.parsePortMappings (pre ++ s :: post) ∧
      WsMuxTransport.parsePortMappings (pre ++ (L ++ equalsSign :: R) :: post) =
        WsMuxTransport.parsePortMappings (pre ++ s :: post) := by
  have hsame := (parsePortMapping_reserialize h).trans h.symm
  exact ⟨parsePortMapping_reserialize h, fun pre post =>
    ⟨fun _ => parsePortMappingsWith_congr _ hsame pre post,
      parsePortMappingsWith_congr _ hsame pre post, parsePortMappingsWith_congr _ hsame pre post⟩⟩

/-- `" 8080 = 127.0.0.1:80"` gives `(":8080", "127.0.0.1:80")`, and so does
`":8080=127.0.0.1:80"`. -/
theorem parsePortMappings_reserialized_spaced :
    parsePortMapping " 8080 = 127.0.0.1:80".toUTF8.data.toList =
        some (":8080".toUTF8.data.toList, "127.0.0.1:80".toUTF8.data.toList) ∧
      parsePortMapping (":8080".toUTF8.data.toList ++ equalsSign :: "127.0.0.1:80".toUTF8.data.toList) =
        some (":8080".toUTF8.data.toList, "127.0.0.1:80".toUTF8.data.toList) :=
  have h : parsePortMapping " 8080 = 127.0.0.1:80".toUTF8.data.toList =
      some (":8080".toUTF8.data.toList, "127.0.0.1:80".toUTF8.data.toList) := by decide
  ⟨h, (parsePortMappings_reserialized h).1⟩

/-- The loop body on every mapping: without an `'='` it accepts exactly what `Atoi` reads, as
`(":" ++ Itoa(n), Itoa(n))`; with one `'='` the local address is the trimmed left side, with a
`':'` in front exactly when `Atoi` reads it, and the remote address the trimmed right side; and
with a second `'='` it accepts the mapping just the same, dropping the text after it. -/
theorem parsePortMapping_by_separators :
    (∀ s, equalsSign ∉ s →
      parsePortMapping s = (atoi s).toOption.map fun n => (colon :: itoa n, itoa n)) ∧
    (∀ A B, equalsSign ∉ A → equalsSign ∉ B →
      parsePortMapping (A ++ equalsSign :: B) =
        some (if (atoi (trimSpace A)).toBool then colon :: trimSpace A else trimSpace A,
          trimSpace B)) ∧
    (∀ A B C, equalsSign ∉ A → equalsSign ∉ B →
      parsePortMapping (A ++ equalsSign :: (B ++ equalsSign :: C)) =
        some (if (atoi (trimSpace A)).toBool then colon :: trimSpace A else trimSpace A,
          trimSpace B)) :=
  ⟨fun _ => parsePortMapping_of_not_mem, fun _ _ => parsePortMapping_one_sep,
    fun _ _ C hA hB => parsePortMapping_two_sep hA hB C⟩

/-- `"8080=127.0.0.1:80=udp"` is accepted as `(":8080", "127.0.0.1:80")`; the `udp` after the
second `'='` is dropped. -/
theorem parsePortMapping_third_part_dropped :
    parsePortMapping "8080=127.0.0.1:80=udp".toUTF8.data.toList =
      some (":8080".toUTF8.data.toList, "127.0.0.1:80".toUTF8.data.toList) :=
  (parsePortMapping_by_separators.2.2 "8080".toUTF8.data.toList
    "127.0.0.1:80".toUTF8.data.toList "udp".toUTF8.data.toList (by decide) (by decide)).trans
    (by decide)

end Backhaul.Server
