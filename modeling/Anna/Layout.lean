import Anna.MemoryReader
import Mathlib.Data.Set.Lattice
import Mathlib.Order.CompletePartialOrder

/-!
# The memory layout

`prepare_config` lays the encoded vectors of the clusters out one after the
other, from the cluster sizes that it reads from a file, beside the centroids
and the metadata records.
-/

namespace Anna

def encodedVectorSizePerBits : Nat := logKStar * subVectorNum

def encodedBytes (size : Int32) : UInt64 := (uint64OfInt size * UInt64.ofNat encodedVectorSizePerBits + 7) / 8

def clustersFrom : UInt64 → List Int32 → List Cluster
  | _, [] => []
  | nowAddr, size :: sizes =>
    ⟨nowAddr, encodedBytes size, uint64OfInt size⟩ :: clustersFrom (nowAddr + encodedBytes size) sizes

/-- The table `cluster_addr`, of the first `CLUSTER_NUM` sizes in the file. -/
def prepareConfig (clusterSize : List Int32) : List Cluster :=
  clustersFrom clusterAddrStart (clusterSize.take clusterNum)

/-! ## The reads of a cluster -/

/-- Sizes come in units of 32 bytes, as many as there are vectors; for a
negative size the count wraps, and stays even or odd. -/
theorem encodedBytes_units (size : Int32) : ∃ b : Nat, (encodedBytes size).toNat = 32 * b ∧ b ≤ 2 ^ 56 ∧
    (b : Int) % 2 = size.toInt % 2 ∧ (b = 0 ↔ size = 0) := by
  have hlow : -2 ^ 31 ≤ size.toInt := Int32.le_toInt size
  have hhigh : size.toInt < 2 ^ 31 := Int32.toInt_lt size
  have hval : (encodedBytes size).toNat = ((size.toInt % 2 ^ 64).toNat * 256 % 2 ^ 64 + 7) % 2 ^ 64 / 8 := by
    have hlt : (size.toInt % 2 ^ 64).toNat < 2 ^ 64 := by omega
    simp only [encodedBytes, uint64OfInt, encodedVectorSizePerBits, logKStar, subVectorNum, UInt64.toNat_div,
      UInt64.toNat_add, UInt64.toNat_mul, UInt64.toNat_ofNat_of_lt' hlt]
    rfl
  have hzero : size = 0 ↔ size.toInt = 0 := by
    rw [← Int32.toInt_inj]
    rfl
  rw [hval, hzero]
  refine ⟨((size.toInt % 2 ^ 64).toNat * 256 % 2 ^ 64 + 7) % 2 ^ 64 / 8 / 32, ?_, ?_, ?_, ?_⟩ <;> omega

theorem length_clustersFrom (nowAddr : UInt64) (sizes : List Int32) :
    (clustersFrom nowAddr sizes).length = sizes.length := by
  induction sizes generalizing nowAddr with
  | nil => rfl
  | cons s sizes ih => rw [clustersFrom, List.length_cons, List.length_cons, ih]

theorem length_prepareConfig {clusterSize : List Int32} (h : clusterSize.length = clusterNum) :
    (prepareConfig clusterSize).length = clusterNum := by
  rw [prepareConfig, length_clustersFrom, List.length_take, h, Nat.min_self]

/-- Where a cluster lies: at a multiple of 32, which is one of 64 if the sizes before it have an even sum. -/
theorem clustersFrom_get {sizes : List Int32} {nowAddr : UInt64} {i : Nat} {c : Cluster} {size : Int32}
    (hnow : nowAddr.toNat % 32 = 0) (hc : (clustersFrom nowAddr sizes)[i]? = some c) (hs : sizes[i]? = some size) :
    c.bytes = encodedBytes size ∧ c.vectorNum = uint64OfInt size ∧ c.startAddr.toNat % 32 = 0 ∧
      ((c.startAddr.toNat / 32 : Nat) : Int) % 2 =
        ((nowAddr.toNat / 32 : Nat) + ((sizes.take i).map Int32.toInt).sum) % 2 := by
  induction sizes generalizing nowAddr i with
  | nil => simp at hs
  | cons s sizes ih =>
    cases i with
    | zero =>
      simp only [clustersFrom, List.getElem?_cons_zero, Option.some.injEq] at hc hs
      subst hc hs
      simp [hnow]
    | succ i =>
      obtain ⟨b, hb, -, hpar, -⟩ := encodedBytes_units s
      have hnext : (nowAddr + encodedBytes s).toNat = (nowAddr.toNat + 32 * b) % 2 ^ 64 := by
        rw [UInt64.toNat_add, hb]
      simp only [clustersFrom, List.getElem?_cons_succ] at hc hs
      obtain ⟨hbytes, hvectors, hstart, hsum⟩ := ih (by rw [hnext]; omega) hc hs
      refine ⟨hbytes, hvectors, hstart, ?_⟩
      rw [hsum, hnext, List.take_succ_cons, List.map_cons, List.sum_cons]
      omega

/-- Every byte of the cluster lies in the line of 64 bytes of some request that the reader issues. -/
def Fetches (id : Nat) (c : Cluster) : Prop :=
  ∀ k < c.bytes.toNat, ∃ addr ∈ ((MemoryReader.new id).submitReadRequest c.startAddr c.bytes).requestQueue,
    addr >>> 6 = (c.startAddr + UInt64.ofNat k) >>> 6

theorem line_toNat (addr : UInt64) {k : Nat} (hk : k < 2 ^ 64) :
    ((addr + UInt64.ofNat k) >>> 6).toNat = (addr.toNat + k) / 64 % 2 ^ 58 := by
  rw [UInt64.toNat_shiftRight, UInt64.toNat_add, UInt64.toNat_ofNat_of_lt' hk]
  show ((addr.toNat + k) % 2 ^ 64) >>> 6 = _
  rw [Nat.shiftRight_eq_div_pow]
  omega

/-- The lines asked for, by number from the line of the first byte. -/
theorem fetches_iff (id : Nat) (c : Cluster) (hb : c.bytes.toNat ≤ 2 ^ 61) : Fetches id c ↔
    ∀ k < c.bytes.toNat, ∃ i < (c.bytes.toNat + 63) / 64,
      (c.startAddr.toNat + i * 64) / 64 % 2 ^ 58 = (c.startAddr.toNat + k) / 64 % 2 ^ 58 := by
  have hqueue : ((MemoryReader.new id).submitReadRequest c.startAddr c.bytes).requestQueue =
      (List.range ((c.bytes.toNat + 63) / 64)).map fun i => c.startAddr + UInt64.ofNat (i * 64) := rfl
  unfold Fetches
  rw [hqueue]
  refine forall₂_congr fun k hk => ⟨?_, ?_⟩
  · rintro ⟨addr, hmem, hline⟩
    obtain ⟨i, hi, rfl⟩ := List.mem_map.mp hmem
    have hi := List.mem_range.mp hi
    refine ⟨i, hi, ?_⟩
    rw [← line_toNat _ (by omega), ← line_toNat _ (by omega), hline]
  · rintro ⟨i, hi, hline⟩
    refine ⟨_, List.mem_map.mpr ⟨i, List.mem_range.mpr hi, rfl⟩, UInt64.toNat_inj.mp ?_⟩
    rw [line_toNat _ (by omega), line_toNat _ (by omega), hline]

theorem prepareConfig_get {clusterSize : List Int32} {i : Nat} {size : Int32} {c : Cluster}
    (hs : clusterSize[i]? = some size) (hc : (prepareConfig clusterSize)[i]? = some c) :
    c.bytes = encodedBytes size ∧ c.vectorNum = uint64OfInt size ∧ c.startAddr.toNat % 32 = 0 ∧
      ((c.startAddr.toNat / 32 : Nat) : Int) % 2 = ((clusterSize.take i).map Int32.toInt).sum % 2 := by
  have hi : i < clusterNum := by
    have hlt := (List.getElem?_eq_some_iff.mp hc).1
    rw [prepareConfig, length_clustersFrom, List.length_take] at hlt
    omega
  have hs' : (clusterSize.take clusterNum)[i]? = some size := by
    rw [List.getElem?_take, if_pos hi, hs]
  obtain ⟨hbytes, hvectors, hstart, hsum⟩ := clustersFrom_get (by decide) hc hs'
  refine ⟨hbytes, hvectors, hstart, ?_⟩
  rw [hsum, List.take_take, Nat.min_eq_left hi.le]
  -- the clusters begin at a whole line
  have hbase : clusterAddrStart.toNat / 32 = 6144 := rfl
  rw [hbase]
  omega

/-- A cluster that starts in the middle of a line loses its end, unless its
size is odd, so that it ends at the end of a line, or zero. -/
theorem fetches_all_iff (id : Nat) (clusterSize : List Int32) (i : Nat) (size : Int32) (c : Cluster)
    (hs : clusterSize[i]? = some size) (hc : (prepareConfig clusterSize)[i]? = some c) : Fetches id c ↔
      ((clusterSize.take i).map Int32.toInt).sum % 2 = 0 ∨ size.toInt % 2 = 1 ∨ size = 0 := by
  obtain ⟨hbytes, -, hstart, hpar⟩ := prepareConfig_get hs hc
  obtain ⟨b, hb, hbound, hodd, hzero⟩ := encodedBytes_units size
  have hlen : c.bytes.toNat = 32 * b := by rw [hbytes, hb]
  rw [fetches_iff id c (by omega), hlen, ← hpar, ← hodd, ← hzero]
  generalize c.startAddr.toNat = start at *
  constructor
  · intro hall
    by_contra hnot
    -- the last byte is in a line of its own
    obtain ⟨j, hj, hline⟩ := hall (32 * b - 1) (by omega)
    omega
  · intro hcond k hk
    exact ⟨(start + k) / 64 - start / 64, by omega, by omega⟩

theorem fetches_all_second : Fetches 0 ⟨0x30040, 128, 4⟩ :=
  (fetches_all_iff 0 (2 :: 4 :: List.replicate 16382 1) 1 4 _ rfl rfl).mpr (Or.inl (by decide))

/-- After a cluster of one vector, the second half of a cluster of two is not read. -/
theorem second_half_lost : (1 :: 2 :: List.replicate 16382 1 : List Int32).length = clusterNum ∧
    (prepareConfig (1 :: 2 :: List.replicate 16382 1))[1]? = some ⟨0x30020, 64, 2⟩ ∧ ¬ Fetches 0 ⟨0x30020, 64, 2⟩ := by
  refine ⟨by rw [List.length_cons, List.length_cons, List.length_replicate]; rfl, rfl, fun h => ?_⟩
  obtain ⟨i, hi, hline⟩ := (fetches_iff 0 ⟨0x30020, 64, 2⟩ (by decide)).mp h 63 (by decide)
  have hi : i < 1 := hi
  have hline : (196640 + i * 64) / 64 % 2 ^ 58 = (196640 + 63) / 64 % 2 ^ 58 := hline
  omega

/-! ## The three regions -/

/-- The bytes from `start` on. -/
def byteRange (start len : UInt64) : Set UInt64 := {x | ∃ k < len.toNat, x = start + UInt64.ofNat k}

def metadataRanges : List (UInt64 × UInt64) := (List.range clusterNum).map metadataAddr

def centroidRanges : List (UInt64 × UInt64) :=
  (List.range clusterNum).map fun i => (clusterCentroid i, UInt64.ofNat vectorSize)

def clusterRanges (clusterSize : List Int32) : List (UInt64 × UInt64) :=
  (prepareConfig clusterSize).map fun c => (c.startAddr, c.bytes)

/-- Different data do not share a byte, within a region and between regions. -/
def KeptApart (clusterSize : List Int32) : Prop :=
  (metadataRanges ++ centroidRanges ++ clusterRanges clusterSize).Pairwise
    fun p q => Disjoint (byteRange p.1 p.2) (byteRange q.1 q.2)

theorem mem_byteRange {start len : UInt64} (h : 0 < len.toNat) : start ∈ byteRange start len :=
  ⟨0, h, (UInt64.add_zero start).symm⟩

/-- Of 16384 metadata records only 1024 fit below the centroids. -/
theorem metadata_reaches_centroids : (metadataAddr 1024).1 = clusterCentroid 0 := by decide

theorem keptApart_regions {clusterSize : List Int32} (h : KeptApart clusterSize) {p q : UInt64 × UInt64}
    (hp : p ∈ metadataRanges) (hq : q ∈ centroidRanges) : Disjoint (byteRange p.1 p.2) (byteRange q.1 q.2) :=
  (List.pairwise_append.mp (List.pairwise_append.mp h).1).2.2 p hp q hq

theorem metadata_mem : metadataAddr 1024 ∈ metadataRanges :=
  List.mem_map.mpr ⟨1024, List.mem_range.mpr (by decide), rfl⟩

theorem centroid_mem : (clusterCentroid 0, UInt64.ofNat vectorSize) ∈ centroidRanges :=
  List.mem_map.mpr ⟨0, List.mem_range.mpr (by decide), rfl⟩

theorem shared_byte : clusterCentroid 0 ∈ byteRange (metadataAddr 1024).1 (metadataAddr 1024).2 ∧
    clusterCentroid 0 ∈ byteRange (clusterCentroid 0) (UInt64.ofNat vectorSize) := by
  refine ⟨?_, mem_byteRange (by decide)⟩
  rw [← metadata_reaches_centroids]
  exact mem_byteRange (by decide)

/-- No sizes keep the data apart: metadata record 1024 begins where the first centroid does. -/
theorem never_keptApart (clusterSize : List Int32) : ¬ KeptApart clusterSize := by
  intro h
  exact Set.disjoint_left.mp (keptApart_regions h metadata_mem centroid_mem) shared_byte.1 shared_byte.2

theorem ones_share_bytes : (List.replicate clusterNum (1 : Int32)).length = clusterNum ∧
    ¬ KeptApart (List.replicate clusterNum 1) := by
  refine ⟨List.length_replicate, fun h => ?_⟩
  exact Set.disjoint_left.mp (keptApart_regions h metadata_mem centroid_mem) shared_byte.1 shared_byte.2

end Anna
