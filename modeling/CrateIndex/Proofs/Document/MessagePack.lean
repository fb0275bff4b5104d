import CrateIndex.Document.Format
import CrateIndex.Proofs.OrderedMap.Entries
import CrateIndex.Proofs.Result
import CrateIndex.Proofs.Text.Utf8
import Mathlib.Algebra.Group.Nat.Defs

/-!
# The MessagePack document reads back

A header tells how much belongs to what follows it, so that no end has to be marked. What is written
is read as it was, with its order, and what stands behind is left.
-/

namespace CrateIndex

/-- No text of the registry holds a surrogate. -/
def Registry.IsScalar : Registry → Prop :=
  OrderedMap.Forall Text.IsScalar
    (OrderedMap.Forall Text.IsScalar (OrderedMap.Forall Text.IsScalar Text.IsScalar))

instance : DecidablePred Registry.IsScalar :=
  inferInstanceAs (DecidablePred (OrderedMap.Forall Text.IsScalar
    (OrderedMap.Forall Text.IsScalar (OrderedMap.Forall Text.IsScalar Text.IsScalar))))

namespace MessagePack

/-! ## Reading -/

/-- The number that bytes stand for, the highest first. -/
def number (bytes : List UInt8) : Nat := bytes.foldl (fun n b => 256 * n + b.toNat) 0

/-- The first `n` bytes and the rest, if there are so many. -/
def split? (n : Nat) (bytes : List UInt8) : Option (List UInt8 × List UInt8) :=
  if bytes.length < n then none else some (bytes.take n, bytes.drop n)

/-- A number of `width` bytes, and the rest. -/
def readNumber (width : Nat) (bytes : List UInt8) : Option (Nat × List UInt8) :=
  (split? width bytes).map fun (content, rest) => (number content, rest)

/-- The number of entries of a map, and the rest. -/
def readMapHeader : List UInt8 → Option (Nat × List UInt8)
  | [] => none
  | b :: rest =>
    if 0x80 ≤ b && b ≤ 0x8F then some (b.toNat - 0x80, rest)
    else if b = 0xDE then readNumber 2 rest
    else if b = 0xDF then readNumber 4 rest
    else none

/-- The number of bytes of a string, and the rest. -/
def readStringHeader : List UInt8 → Option (Nat × List UInt8)
  | [] => none
  | b :: rest =>
    if 0xA0 ≤ b && b ≤ 0xBF then some (b.toNat - 0xA0, rest)
    else if b = 0xD9 then readNumber 1 rest
    else if b = 0xDA then readNumber 2 rest
    else if b = 0xDB then readNumber 4 rest
    else none

/-- A string, and the rest. -/
def readString (bytes : List UInt8) : Option (Text × List UInt8) := do
  let (n, bytes) ← readStringHeader bytes
  let (content, rest) ← split? n bytes
  let s ← (Utf8.decode content).toOption
  return (s, rest)

/-- Entries whose values are read by `read`, and the rest. -/
def readEntries {ν : Type} (read : List UInt8 → Option (ν × List UInt8)) :
    (count : Nat) → List UInt8 → Option (List (Text × ν) × List UInt8)
  | 0, bytes => some ([], bytes)
  | count + 1, bytes => do
    let (k, bytes) ← readString bytes
    let (v, bytes) ← read bytes
    let (es, rest) ← readEntries read count bytes
    return ((k, v) :: es, rest)

/-- A map whose values are read by `read`, and the rest. -/
def readMap {ν : Type} (read : List UInt8 → Option (ν × List UInt8)) (bytes : List UInt8) :
    Option (OrderedMap Text ν × List UInt8) := do
  let (count, bytes) ← readMapHeader bytes
  let (es, rest) ← readEntries read count bytes
  return (.ofList es, rest)

/-- The registry at the start of the bytes, and the rest. -/
def read : List UInt8 → Option (Registry × List UInt8) := readMap (readMap (readMap readString))

/-! ## Headers -/

variable {n width : Nat}

theorem length_bigEndian (width n : Nat) : (bigEndian width n).length = width := by
  induction width generalizing n with
  | zero => rfl
  | succ width ih => simp [bigEndian, ih]

theorem number_concat (bytes : List UInt8) (b : UInt8) :
    number (bytes ++ [b]) = 256 * number bytes + b.toNat := by
  simp [number]

theorem number_bigEndian (h : n < 256 ^ width) : number (bigEndian width n) = n := by
  induction width generalizing n with
  | zero =>
      rw [Nat.pow_zero] at h
      rw [Nat.lt_one_iff.1 h]
      rfl
  | succ width ih =>
      have hb : (n % 256).toUInt8.toNat = n % 256 := toNat_toUInt8 (Nat.mod_lt n (by decide))
      have hq : n / 256 < 256 ^ width := by
        rw [Nat.pow_succ] at h
        exact Nat.div_lt_of_lt_mul (by rwa [Nat.mul_comm])
      rw [bigEndian, number_concat, ih hq, hb]
      exact Nat.div_add_mod n 256

theorem split?_append (content rest : List UInt8) :
    split? content.length (content ++ rest) = some (content, rest) := by
  simp [split?]

theorem readNumber_bigEndian (rest : List UInt8) (h : n < 256 ^ width) :
    readNumber width (bigEndian width n ++ rest) = some (n, rest) := by
  have hs := split?_append (bigEndian width n) rest
  rw [length_bigEndian] at hs
  simp [readNumber, hs, number_bigEndian h]

/-- A number that goes into the header's one byte stands between the bytes of its kind. -/
theorem shortHeader (base last : UInt8) (h : base.toNat + n ≤ last.toNat) :
    base ≤ (base.toNat + n).toUInt8 ∧ (base.toNat + n).toUInt8 ≤ last ∧
      (base.toNat + n).toUInt8.toNat = base.toNat + n := by
  have hb : (base.toNat + n).toUInt8.toNat = base.toNat + n :=
    toNat_toUInt8 (Nat.lt_of_le_of_lt h last.toNat_lt)
  rw [UInt8.le_iff_toNat_le, UInt8.le_iff_toNat_le, hb]
  exact ⟨Nat.le_add_right base.toNat n, h, rfl⟩

theorem readMapHeader_mapHeader (rest : List UInt8) (h : n < 2 ^ 32) :
    readMapHeader (mapHeader n ++ rest) = some (n, rest) := by
  unfold mapHeader
  split
  · have hb : (0x80 : UInt8) ≤ (0x80 + n).toUInt8 ∧ (0x80 + n).toUInt8 ≤ 0x8F ∧
        (0x80 + n).toUInt8.toNat = 0x80 + n := shortHeader 0x80 0x8F (by simp; omega)
    simp only [List.singleton_append, readMapHeader, hb]
    simp
  split
  · have h2 : n < 256 ^ 2 := by omega
    exact readNumber_bigEndian rest h2
  · have h4 : n < 256 ^ 4 := by omega
    exact readNumber_bigEndian rest h4

theorem readStringHeader_stringHeader (rest : List UInt8) (h : n < 2 ^ 32) :
    readStringHeader (stringHeader n ++ rest) = some (n, rest) := by
  unfold stringHeader
  split
  · have hb : (0xA0 : UInt8) ≤ (0xA0 + n).toUInt8 ∧ (0xA0 + n).toUInt8 ≤ 0xBF ∧
        (0xA0 + n).toUInt8.toNat = 0xA0 + n := shortHeader 0xA0 0xBF (by simp; omega)
    simp only [List.singleton_append, readStringHeader, hb]
    simp
  split
  · have h1 : n < 256 ^ 1 := by omega
    exact readNumber_bigEndian rest h1
  split
  · have h2 : n < 256 ^ 2 := by omega
    exact readNumber_bigEndian rest h2
  · have h4 : n < 256 ^ 4 := by omega
    exact readNumber_bigEndian rest h4

example : mapHeader 15 = [0x8F] ∧ mapHeader 16 = [0xDE, 0, 16] ∧
    stringHeader 31 = [0xBF] ∧ stringHeader 32 = [0xD9, 32] ∧ stringHeader 256 = [0xDA, 1, 0] := by
  decide

/-! ## Strings and maps -/

variable {ν : Type} {write : ν → Except Utf8.SurrogateRun (List UInt8)}
  {read : List UInt8 → Option (ν × List UInt8)}

/-- The value has bytes, and before whatever follows they are read as the value. -/
def ReadsBack (write : ν → Except Utf8.SurrogateRun (List UInt8))
    (read : List UInt8 → Option (ν × List UInt8)) (v : ν) : Prop :=
  ∃ bytes, write v = .ok bytes ∧ ∀ rest, read (bytes ++ rest) = some (v, rest)

theorem readsBack_string {s : Text} (hs : s.IsScalar) (h : Utf8.size s < 2 ^ 32) :
    ReadsBack string readString s := by
  refine ⟨stringHeader (Utf8.size s) ++ s.flatMap CodePoint.utf8, ?_, fun rest => ?_⟩
  · rw [string, Utf8.encode_of_isScalar hs]
    rfl
  · have hc := split?_append (s.flatMap CodePoint.utf8) rest
    change split? (Utf8.size s) _ = _ at hc
    simp [readString, readStringHeader_stringHeader _ h, hc, Utf8.decode_of_isScalar hs]

theorem readsBack_entries {es : List (Text × ν)}
    (h : ∀ e ∈ es, ReadsBack string readString e.1 ∧ ReadsBack write read e.2) :
    ∃ parts : List (List UInt8),
      (es.mapM fun (k, v) => do return (← string k) ++ (← write v)) = .ok parts ∧
        ∀ rest, readEntries read es.length (parts.flatten ++ rest) = some (es, rest) := by
  induction es with
  | nil => exact ⟨[], rfl, fun rest => rfl⟩
  | cons e es ih =>
      obtain ⟨⟨hk, hv⟩, hes⟩ := List.forall_mem_cons.1 h
      obtain ⟨kb, hkw, hkr⟩ := hk
      obtain ⟨vb, hvw, hvr⟩ := hv
      obtain ⟨parts, hw, hr⟩ := ih hes
      refine ⟨(kb ++ vb) :: parts, ?_, fun rest => ?_⟩
      · rw [List.mapM_cons, hw]
        simp [hkw, hvw, pure, Except.pure]
      · simp [readEntries, hkr, hvr, hr]

theorem readsBack_map {m : OrderedMap Text ν} (hm : m.size < 2 ^ 32)
    (h : m.Forall (ReadsBack string readString) (ReadsBack write read)) :
    ReadsBack (map write) (readMap read) m := by
  obtain ⟨parts, hw, hr⟩ := readsBack_entries h
  refine ⟨mapHeader m.size ++ parts.flatten, ?_, fun rest => ?_⟩
  · rw [map, hw]
    rfl
  · have hes : readEntries read m.size (parts.flatten ++ rest) = some (m.entries, rest) := hr rest
    simp [readMap, readMapHeader_mapHeader _ hm, hes]

/-! ## Registries -/

/-- A header can tell the bytes of the text. -/
def TextFits (s : Text) : Prop := Utf8.size s < 2 ^ 32

/-- Headers can tell the entries of the map and the bytes of its keys, and its values fit. -/
def MapFits (P : ν → Prop) (m : OrderedMap Text ν) : Prop := m.size < 2 ^ 32 ∧ m.Forall TextFits P

/-- Headers can tell the entries of each map and the bytes of each text. -/
def Fits : Registry → Prop := MapFits (MapFits (MapFits TextFits))

instance : DecidablePred TextFits := fun s => inferInstanceAs (Decidable (Utf8.size s < 2 ^ 32))

instance {P : ν → Prop} [DecidablePred P] : DecidablePred (MapFits P) := fun m =>
  inferInstanceAs (Decidable (m.size < 2 ^ 32 ∧ m.Forall TextFits P))

instance : DecidablePred Fits :=
  inferInstanceAs (DecidablePred (MapFits (MapFits (MapFits TextFits))))

theorem readsBack_map_of_fits {P Q : ν → Prop} (hval : ∀ v, P v → Q v → ReadsBack write read v)
    {m : OrderedMap Text ν} (hp : m.Forall Text.IsScalar P) (hq : MapFits Q m) :
    ReadsBack (map write) (readMap read) m := by
  obtain ⟨hsize, hq⟩ := hq
  refine readsBack_map hsize fun e he => ?_
  obtain ⟨hk, hv⟩ := hp e he
  obtain ⟨hk', hv'⟩ := hq e he
  exact ⟨readsBack_string hk hk', hval e.2 hv hv'⟩

theorem readsBack_registry {r : Registry} (hr : r.IsScalar) (hf : Fits r) :
    ReadsBack encode MessagePack.read r :=
  readsBack_map_of_fits (fun _ => readsBack_map_of_fits fun _ => readsBack_map_of_fits fun _ =>
    readsBack_string) hr hf

/-- A document is read as its registry, and what follows it is left. So no two registries share a
document, and none is the start of another's. -/
theorem encode_uniquelyDecodable {r : Registry} (hr : r.IsScalar) (hf : Fits r) :
    ∃ bytes, Format.messagePack.encode r = .ok bytes ∧
      (∀ rest, MessagePack.read (bytes ++ rest) = some (r, rest)) ∧
      ∀ (r' : Registry) (bytes' : List UInt8), r'.IsScalar → Fits r' →
        Format.messagePack.encode r' = .ok bytes' → bytes <+: bytes' → r' = r ∧ bytes' = bytes := by
  obtain ⟨bytes, hw, hread⟩ := readsBack_registry hr hf
  refine ⟨bytes, hw, hread, ?_⟩
  rintro r' bytes' hr' hf' hw' ⟨rest, rfl⟩
  obtain ⟨bytes'', hw'', hread'⟩ := readsBack_registry hr' hf'
  obtain rfl : bytes ++ rest = bytes'' := Except.ok.inj (hw'.symm.trans hw'')
  -- The longer document is read as the one registry and as the other, with all that each leaves.
  have h : some (r', []) = some (r, rest) := by
    rw [← hread rest, ← hread' [], List.append_nil]
  cases h
  exact ⟨rfl, List.append_nil bytes⟩

/-- A registry with sixteen versions of one package, the empty text among its keys, a range of
32 bytes that are 8 characters, and a package without versions. -/
def crabs : Registry := .ofList
  [("größe", .tabulate 16 (fun i => List.replicate i (.ofNat 0x31))
      (fun i => .ofList [("", List.replicate (i % 9) (.ofNat 0x1F980))])
      fun i j h => by simpa using congrArg List.length h),
    ("leer", ∅)]

theorem encode_crabs_uniquelyDecodable : crabs.IsScalar ∧ Fits crabs ∧
    ∃ bytes, Format.messagePack.encode crabs = .ok bytes ∧
      (∀ rest, MessagePack.read (bytes ++ rest) = some (crabs, rest)) ∧
      ∀ (r' : Registry) (bytes' : List UInt8), r'.IsScalar → Fits r' →
        Format.messagePack.encode r' = .ok bytes' → bytes <+: bytes' →
          r' = crabs ∧ bytes' = bytes :=
  have hr : crabs.IsScalar := by decide +kernel
  have hf : Fits crabs := by decide +kernel
  ⟨hr, hf, encode_uniquelyDecodable hr hf⟩

end MessagePack

end CrateIndex
