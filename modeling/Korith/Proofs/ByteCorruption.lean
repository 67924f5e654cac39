import Korith.Lib.Checksum
import Korith.Proofs.IndexRoundTrip
import Korith.Amf.Overwrite

/-!
# A changed byte is found

The prime of the hash is odd, so each of its steps can be undone and one changed byte is never cancelled by what
follows. In the index file this covers the records; the magic and the stored checksum are compared as they are. The
version and the count are not protected this way: they say how the rest is read.
-/

namespace Korith.Amf

/-! ### The hash -/

def kFNVInverse : Hash := 14886173955864302971#64

theorem kFNVPrime_mul_inverse : kFNVPrime * kFNVInverse = 1#64 := by decide

theorem mul_kFNVPrime_injective : Function.Injective fun h : Hash => h * kFNVPrime := by
  intro g h heq
  have hmul : g * kFNVPrime * kFNVInverse = h * kFNVPrime * kFNVInverse := congrArg (· * kFNVInverse) heq
  rwa [BitVec.mul_assoc, BitVec.mul_assoc, kFNVPrime_mul_inverse, BitVec.mul_one, BitVec.mul_one] at hmul

theorem setWidth_byte_injective : Function.Injective fun b : Byte => b.setWidth 64 := by
  intro a b heq
  have ha := a.isLt
  have hb := b.isLt
  have hnat := congrArg BitVec.toNat heq
  rw [BitVec.toNat_setWidth, BitVec.toNat_setWidth, Nat.mod_eq_of_lt (by omega), Nat.mod_eq_of_lt (by omega)] at hnat
  exact BitVec.eq_of_toNat_eq hnat

variable {b : Byte} {i : Nat} {data : List Byte}

theorem hashBytes_set_ne {a : Byte} (hi : data[i]? = some a) (hne : b ≠ a) (h : Hash) :
    hashBytes h (data.set i b) ≠ hashBytes h data := by
  refine foldl_set_ne ?_ ?_ hi hne h
  · intro x g g' heq
    exact (BitVec.xor_left_inj _).mp (mul_kFNVPrime_injective heq)
  · intro g x y heq
    exact setWidth_byte_injective ((BitVec.xor_right_inj _).mp (mul_kFNVPrime_injective heq))

theorem hashBytes_append (h : Hash) (xs ys : List Byte) : hashBytes h (xs ++ ys) = hashBytes (hashBytes h xs) ys :=
  List.foldl_append

theorem hashBytes_flatMap {α : Type} (g : α → List Byte) (h : Hash) (xs : List α) :
    hashBytes h (xs.flatMap g) = xs.foldl (fun h x => hashBytes h (g x)) h := by
  induction xs generalizing h with
  | nil => rfl
  | cons x xs ih => rw [List.flatMap_cons, hashBytes_append, ih, List.foldl_cons]

/-! ### The index file -/

set_option linter.unusedSectionVars false

variable {F : Type} [FloatArith F] {e : Env F} {d : DoubleBits F} {v : IndexVersion} {bytes : List Byte}
  {w w' : World F} {version count checksum magic : Nat} {old : Byte} {x : AmfEntry F}

theorem loadLoop_checksum {n : Nat} {c c' : Hash} (h : loadLoop e d v n bytes c w = (some c', w')) :
    c' = hashBytes c (bytes.take (n * recordSize v)) := by
  induction n generalizing bytes c w with
  | zero =>
    cases h
    rw [Nat.zero_mul, List.take_zero]
    rfl
  | succ n ih =>
    rw [loadLoop] at h
    split at h
    · cases h
    · rw [ih h, ← hashBytes_append, Nat.succ_mul, Nat.add_comm, List.take_add]

def Refused (r : Bool × World F) : Prop := r.1 = false ∧ r.2.store.enabled = false

theorem loadBody_refused (h : (hashBytes (hashBytes kFNVOffset (indexHeader version count 0))
    (bytes.take (count * recordSize v))).toNat ≠ checksum) : Refused (loadBody e d v version count checksum bytes w) := by
  unfold loadBody
  split
  · exact ⟨rfl, rfl⟩
  · split
    · exact ⟨rfl, rfl⟩
    · rename_i found w₁ hloop
      rw [if_pos (by rwa [loadLoop_checksum hloop])]
      exact ⟨rfl, rfl⟩

def headerWith (magic version count checksum : Nat) : List Byte :=
  leBytes 4 magic ++ (leBytes 4 version ++ (leBytes 8 count ++ leBytes 8 checksum))

theorem indexHeader_eq (version count checksum : Nat) :
    indexHeader version count checksum = headerWith kIndexMagic version count checksum := by
  show leBytes 4 kIndexMagic ++ (leBytes 4 version ++ (leBytes 8 count ++ (leBytes 8 checksum ++ []))) = _
  rw [List.append_nil]
  rfl

theorem unpackFields_headerWith (hm : magic < 256 ^ 4) (hv : version < 256 ^ 4) (hn : count < 256 ^ 8)
    (hc : checksum < 256 ^ 8) (rest : List Byte) :
    unpackFields headerWidths (headerWith magic version count checksum ++ rest) =
      some [magic, version, count, checksum] := by
  have hpack : headerWith magic version count checksum =
      packFields [(4, magic), (4, version), (8, count), (8, checksum)] := by
    show _ = leBytes 4 magic ++ (leBytes 4 version ++ (leBytes 8 count ++ (leBytes 8 checksum ++ [])))
    rw [List.append_nil]
    rfl
  rw [hpack]
  refine unpackFields_packFields [(4, magic), (4, version), (8, count), (8, checksum)] ?_ rest
  simp only [List.forall_mem_cons, List.not_mem_nil, false_imp_iff, implies_true, and_true]
  exact ⟨hm, hv, hn, hc⟩

theorem headerWith_set (hm : magic < 256 ^ 4) (hc : checksum < 256 ^ 8)
    (hi : (headerWith magic version count checksum)[i]? = some old) (hb : b ≠ old) (hout : i < 4 ∨ 16 ≤ i) :
    ∃ magic' checksum', magic' < 256 ^ 4 ∧ checksum' < 256 ^ 8 ∧
      (headerWith magic version count checksum).set i b = headerWith magic' version count checksum' ∧
      (magic' ≠ magic ∨ checksum' ≠ checksum) := by
  rcases hout with hlt | hge
  · have hmagic : i < (leBytes 4 magic).length := by rwa [length_leBytes]
    rw [headerWith, List.getElem?_append_left hmagic] at hi
    obtain ⟨magic', hlt', hset, hne⟩ := leBytes_set hi hb
    refine ⟨magic', checksum, hlt', hc, ?_, .inl hne⟩
    rw [headerWith, List.set_append_left _ _ hmagic, hset]
    rfl
  · rw [headerWith, List.getElem?_append_right (by rw [length_leBytes]; omega),
      List.getElem?_append_right (by rw [length_leBytes, length_leBytes]; omega),
      List.getElem?_append_right (by rw [length_leBytes, length_leBytes, length_leBytes]; omega),
      length_leBytes, length_leBytes, length_leBytes] at hi
    obtain ⟨checksum', hlt', hset, hne⟩ := leBytes_set hi hb
    refine ⟨magic, checksum', hm, hlt', ?_, .inr hne⟩
    rw [headerWith, List.set_append_right _ _ (by rw [length_leBytes]; omega),
      List.set_append_right _ _ (by rw [length_leBytes, length_leBytes]; omega),
      List.set_append_right _ _ (by rw [length_leBytes, length_leBytes, length_leBytes]; omega),
      length_leBytes, length_leBytes, length_leBytes, hset]
    rfl

theorem length_headerWith (magic version count checksum : Nat) :
    (headerWith magic version count checksum).length = headerSize := by
  simp only [headerWith, List.length_append, length_leBytes]
  rfl

theorem length_records (d : DoubleBits F) (xs : List (AmfEntry F)) :
    (xs.flatMap (indexRecord d)).length = xs.length * recordSize .v9 :=
  length_flatMap_of_forall fun _ _ => length_indexRecord

theorem loadIndexBytes_refused {records : List Byte} (hm : magic < 256 ^ 4) (hn : count < 256 ^ 8)
    (hc : checksum < 256 ^ 8) (hlen : records.length = count * recordSize .v9) (hbad : magic ≠ kIndexMagic ∨
      (hashBytes (hashBytes kFNVOffset (indexHeader kIndexVersion count 0)) records).toNat ≠ checksum) :
    Refused (loadIndexBytes e d (some (headerWith magic kIndexVersion count checksum ++ records)) w) := by
  unfold loadIndexBytes
  dsimp only
  rw [unpackFields_headerWith hm (by decide) hn hc, List.drop_left' (length_headerWith ..)]
  dsimp only
  by_cases hmagic : magic = kIndexMagic
  · rw [if_neg (not_not.mpr hmagic), if_pos rfl]
    refine loadBody_refused ?_
    rw [← hlen, List.take_length]
    exact hbad.resolve_left (not_not.mpr hmagic)
  · rw [if_pos hmagic]
    exact ⟨rfl, rfl⟩

theorem indexBytes_set_refused {xs : List (AmfEntry F)} (hlen : xs.length ≤ 2 ^ 20)
    (hi : (indexBytes d xs)[i]? = some old) (hb : b ≠ old) (hout : i < 4 ∨ 16 ≤ i) :
    Refused (loadIndexBytes e d (some ((indexBytes d xs).set i b)) w) := by
  have hcount : xs.length < 256 ^ 8 := by omega
  obtain ⟨sum, hsum⟩ : ∃ sum, sum = hashBytes (hashBytes kFNVOffset (indexHeader kIndexVersion xs.length 0))
      (xs.flatMap (indexRecord d)) := ⟨_, rfl⟩
  have hfile : indexBytes d xs = headerWith kIndexMagic kIndexVersion xs.length sum.toNat ++
      xs.flatMap (indexRecord d) := by
    rw [hsum, hashBytes_flatMap, ← indexHeader_eq]
    rfl
  rw [hfile] at hi ⊢
  by_cases hheader : i < headerSize
  · have hlt : i < (headerWith kIndexMagic kIndexVersion xs.length sum.toNat).length := by rwa [length_headerWith]
    rw [List.getElem?_append_left hlt] at hi
    obtain ⟨magic', checksum', hm', hc', hset, hne⟩ := headerWith_set (by decide) sum.isLt hi hb hout
    rw [List.set_append_left _ _ hlt, hset]
    rw [hsum] at hne
    exact loadIndexBytes_refused hm' hcount hc' (length_records d xs) (hne.imp_right Ne.symm)
  · have hge : (headerWith kIndexMagic kIndexVersion xs.length sum.toNat).length ≤ i := by
      rw [length_headerWith]
      omega
    rw [List.getElem?_append_right hge] at hi
    rw [List.set_append_right _ _ hge]
    refine loadIndexBytes_refused (by decide) hcount sum.isLt (by rw [List.length_set, length_records]) (.inr ?_)
    intro heq
    rw [hsum] at heq
    exact hashBytes_set_ne hi hb _ (BitVec.eq_of_toNat_eq heq)

/-! ### The KV files -/

structure StoredKv (x : AmfEntry F) (data : List Byte) (w : World F) : Prop where
  file : w.disk.kv x.key = some data
  nonempty : data ≠ []
  checksum : x.kvChecksum = hashBytes kFNVOffset data

def World.setKv (w : World F) (key : AmfKey) (data : List Byte) : World F :=
  { w with disk := { w.disk with kv := Function.update w.disk.kv key (some data) } }

theorem World.setKv_kv (w : World F) (key : AmfKey) (data : List Byte) : (w.setKv key data).disk.kv key = some data := by
  show Function.update w.disk.kv key (some data) key = some data
  rw [Function.update_self]

theorem StoredKv.load (h : StoredKv x data w) : loadKv x w = some data :=
  loadKv_eq_some h.file h.nonempty (.inr h.checksum.symm)

theorem StoredKv.load_set (h : StoredKv x data w) (hsum : x.kvChecksum ≠ 0)
    (hi : data[i]? = some old) (hb : b ≠ old) : loadKv x (w.setKv x.key (data.set i b)) = none := by
  refine Option.eq_none_iff_forall_ne_some.mpr fun data' hload => ?_
  obtain ⟨hfile, -, hgood⟩ := of_loadKv hload
  have hset : data.set i b = data' := by
    rw [World.setKv_kv] at hfile
    exact Option.some.inj hfile
  have hhash := hgood.resolve_left hsum
  rw [← hset, h.checksum] at hhash
  exact hashBytes_set_ne hi hb _ hhash

theorem changed_byte_found (e : Env F) (d : DoubleBits F) (w : World F) :
    (∀ xs : List (AmfEntry F), xs.length ≤ 2 ^ 20 → ∀ i b old, (indexBytes d xs)[i]? = some old → b ≠ old →
      i < 4 ∨ 16 ≤ i → Refused (loadIndexBytes e d (some ((indexBytes d xs).set i b)) w)) ∧
    ∀ (x : AmfEntry F) (data : List Byte), StoredKv x data w → x.kvChecksum ≠ 0 →
      (loadKv x w = some data ∧ ∀ buf : List Byte, data.length ≤ buf.length →
        loadKvInto x buf w = (true, data ++ buf.drop data.length, data.length)) ∧
      ∀ i b old, data[i]? = some old → b ≠ old →
        loadKv x (w.setKv x.key (data.set i b)) = none ∧
        ∀ buf : List Byte, (loadKvInto x buf (w.setKv x.key (data.set i b))).1 = false := by
  constructor
  · intro xs hlen i b old hi hb hout
    exact indexBytes_set_refused hlen hi hb hout
  · intro x data hstored hsum
    refine ⟨⟨hstored.load, fun buf hbuf => loadKvInto_of_loadKv hstored.load hbuf⟩, ?_⟩
    intro i b old hi hb
    have hnone := hstored.load_set hsum hi hb
    exact ⟨hnone, fun buf => loadKvInto_of_loadKv_none hnone⟩

/-- The first byte of the second record, and the only byte of a state. -/
theorem changed_byte_found_two_tenants :
    Refused (loadIndexBytes smallEnv fracBits (some ((indexBytes fracBits twoTenants).set 256 255)) emptyWorld) ∧
    loadKv (newEntry smallEnv (tenant 2) [5, 6] [3] 4 2000 none)
      (emptyWorld.setKv (keyOf (tenant 2) [5, 6]) [4]) = none := by
  have hbyte : (indexBytes fracBits twoTenants)[256]? = some 7 := by decide +kernel
  have hindex := (changed_byte_found smallEnv fracBits emptyWorld).1 twoTenants twoTenants_length 256 255 7 hbyte (by decide)
    (.inr (by decide))
  have hstored : StoredKv (newEntry smallEnv (tenant 2) [5, 6] [3] 4 2000 none) [3]
      (emptyWorld.setKv (keyOf (tenant 2) [5, 6]) [3]) := ⟨World.setKv_kv .., by decide, rfl⟩
  have hkv := ((changed_byte_found smallEnv fracBits _).2 _ [3] hstored (by decide +kernel)).2 0 4 3 rfl (by decide)
  refine ⟨hindex, ?_⟩
  have hset : (emptyWorld.setKv (keyOf (tenant 2) [5, 6]) [3]).setKv (keyOf (tenant 2) [5, 6]) [4] =
      emptyWorld.setKv (keyOf (tenant 2) [5, 6]) [4] := by
    simp [World.setKv]
  rw [← hset]
  exact hkv.1

end Korith.Amf
