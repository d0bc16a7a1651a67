import SscOnWindows.Lib.Arena
import SscOnWindows.Lib.Machine

/-!
# The allocator of the libc shim

The blob of the encoder is a library for Android, and calls `malloc` of a small shim.  The shim
keeps two pointers into the region it has mapped last, grants memory from there and maps a new
region when the rest is too small.  Its `free` does nothing.

What `mmap` answers is an input of each call.  It either reports an error or maps a region of the
length asked, which is not empty, at a page, apart from all regions mapped before.
-/

namespace Ssc.LibcShim

open Arena Machine

/-! ### The calls -/

/-- `heap_cur` and `heap_end`. -/
structure Heap where
  heapCur : UInt64
  heapEnd : UInt64
  deriving DecidableEq, Repr

/-- The bytes that `malloc(n)` sets aside. -/
def rounded (n : UInt64) : UInt64 :=
  if (n + 15) &&& ~~~15 = 0 then 16 else (n + 15) &&& ~~~15

/-- The length that is asked of `mmap` for `n` bytes. -/
def request (n : UInt64) : UInt64 :=
  if n < (1 : UInt64) <<< 20 then (1 : UInt64) <<< 20 else (n + 4095) &&& ~~~4095

/-- What `malloc(n)` asks of `mmap`, if it does. -/
def Heap.asks (heap : Heap) (n : UInt64) : Option UInt64 :=
  if heap.heapCur = 0 ∨ heap.heapEnd - heap.heapCur < rounded n then some (request (rounded n))
  else none

/-- The next `n` bytes are granted. -/
def Heap.bump (heap : Heap) (n : UInt64) : UInt64 × Heap :=
  (heap.heapCur, { heap with heapCur := heap.heapCur + n })

/-- `malloc(n)`, where `p` is what the system call returns, if it is made. -/
def Heap.malloc (heap : Heap) (n : UInt64) (p : Int64) : UInt64 × Heap :=
  match heap.asks n with
  | none => heap.bump (rounded n)
  | some length =>
      if p < 0 ∧ p > -4096 then (0, heap)
      else Heap.bump ⟨p.toUInt64, p.toUInt64 + length⟩ (rounded n)

/-! ### The shim and the kernel -/

/-- The system call reports an error number. -/
def Fails (p : Int64) : Prop := -4095 ≤ p.toInt ∧ p.toInt ≤ -1

instance (p : Int64) : Decidable (Fails p) := inferInstanceAs (Decidable (_ ∧ _))

/-- The region behind a system call that maps `length` bytes. -/
def mapping (p : Int64) (length : UInt64) : Region := ⟨p.toUInt64.toNat, length.toNat⟩

/-- The regions that `mmap` can map behind others. -/
structure Maps (mapped : List Region) (new : Region) : Prop where
  pos : 0 < new.size
  page : 4096 ∣ new.start
  bound : new.start + new.size ≤ 2 ^ 64
  fresh : ∀ m ∈ mapped, Disjoint m.cells new.cells

instance (mapped : List Region) (new : Region) : Decidable (Maps mapped new) :=
  decidable_of_iff
    (0 < new.size ∧ 4096 ∣ new.start ∧ new.start + new.size ≤ 2 ^ 64
      ∧ ∀ m ∈ mapped, Disjoint m.cells new.cells)
    ⟨fun ⟨hpos, hpage, hbound, hfresh⟩ => ⟨hpos, hpage, hbound, hfresh⟩,
      fun ⟨hpos, hpage, hbound, hfresh⟩ => ⟨hpos, hpage, hbound, hfresh⟩⟩

/-- A call of `malloc`, and what the system call returns in it. -/
structure Call where
  n : UInt64
  p : Int64
  deriving DecidableEq, Repr

/-- The size that was asked for, and the pointer that was returned. -/
structure Result where
  n : UInt64
  out : UInt64
  deriving DecidableEq, Repr

/-- The shim, the regions that are mapped, and the results of all calls in order. -/
structure State where
  heap : Heap
  mapped : List Region
  results : List Result
  deriving DecidableEq, Repr

/-- Nothing is mapped. -/
def initial : State := ⟨⟨0, 0⟩, [], []⟩

/-- A call, if the system call can return what it is said to. -/
def State.next (s : State) (c : Call) : Option State :=
  let (out, heap) := s.heap.malloc c.n c.p
  let results := s.results ++ [⟨c.n, out⟩]
  match s.heap.asks c.n with
  | none => some ⟨heap, s.mapped, results⟩
  | some length =>
      if Fails c.p then some ⟨heap, s.mapped, results⟩
      else if Maps s.mapped (mapping c.p length) then
        some ⟨heap, mapping c.p length :: s.mapped, results⟩
      else none

/-! ### What callers rely on -/

/-- The result is a region of the size asked for, aligned to 16 bytes and inside one mapping. -/
structure Result.Holds (mapped : List Region) (result : Result) (r : Region) : Prop where
  start : r.start = result.out.toNat
  aligned : 16 ∣ r.start
  size : result.n.toNat ≤ r.size
  pos : 0 < r.size
  inside : ∃ m ∈ mapped, r.cells ⊆ m.cells

/-- The result is not `NULL`. -/
def Result.found (result : Result) : Bool := result.out ≠ 0

/-- The results that are not `NULL` are regions apart from each other. -/
def State.Allocated (s : State) : Prop :=
  ∃ regions, List.Forall₂ (Result.Holds s.mapped) (s.results.filter Result.found) regions
    ∧ regions.Pairwise fun r t => Disjoint r.cells t.cells

/-- The size asked for is not one of the last fifteen, or there is no room and no mapping. -/
def Keeps (s : State) (c : Call) : Prop :=
  c.n.toNat + 15 < 2 ^ 64
    ∨ (s.heap.heapCur = 0 ∨ s.heap.heapEnd - s.heap.heapCur < 16) ∧ (Fails c.p ∨ c.p = 0)

instance (s : State) (c : Call) : Decidable (Keeps s c) := inferInstanceAs (Decidable (_ ∨ _))

/-! ### Sizes -/

theorem toNat_rounded (n : UInt64) :
  (rounded n).toNat
    = if (n.toNat + 15) % 2 ^ 64 < 16 then 16 else (n.toNat + 15) % 2 ^ 64 / 16 * 16
  := by
  have hmask : ((n + 15) &&& ~~~15).toNat = (n.toNat + 15) % 2 ^ 64 / 16 * 16 :=
    toNat_add_and_not (show 4 ≤ 64 by decide) rfl
  rw [rounded]
  split
  next hzero =>
    rw [hzero, UInt64.toNat_zero] at hmask
    rw [if_pos (by omega)]
    rfl
  next hpos =>
    have hne : ((n + 15) &&& ~~~15).toNat ≠ 0 := fun h => hpos (UInt64.toNat_inj.mp h)
    rw [hmask, if_neg (by omega)]

theorem dvd_rounded (n : UInt64) :
  16 ∣ (rounded n).toNat
  := by
  rw [toNat_rounded]
  split
  · rfl
  · apply Nat.dvd_mul_left

theorem rounded_pos (n : UInt64) :
  0 < (rounded n).toNat
  := by
  rw [toNat_rounded]
  split <;> omega

/-- Where the sum does not wrap around, the size asked for is set aside. -/
theorem le_rounded {n : UInt64} (h : n.toNat + 15 < 2 ^ 64) :
  n.toNat ≤ (rounded n).toNat
  := by
  rw [toNat_rounded, Nat.mod_eq_of_lt h]
  split <;> omega

/-- Where it does, sixteen bytes are. -/
theorem rounded_of_wraps {n : UInt64} (h : ¬ n.toNat + 15 < 2 ^ 64) :
  rounded n = 16
  := by
  have hlt := n.toNat_lt
  apply UInt64.toNat_inj.mp
  rw [toNat_rounded, if_pos (by omega)]
  rfl

theorem toNat_request (n : UInt64) :
  (request n).toNat
    = if n.toNat < 2 ^ 20 then 2 ^ 20
      else (n.toNat + (2 ^ 12 - 1)) % 2 ^ 64 / 2 ^ 12 * 2 ^ 12
  := by
  have hmask : ((n + 4095) &&& ~~~4095).toNat
      = (n.toNat + (2 ^ 12 - 1)) % 2 ^ 64 / 2 ^ 12 * 2 ^ 12 :=
    toNat_add_and_not (by decide) (by decide)
  have hbound : n < (1 : UInt64) <<< 20 ↔ n.toNat < 2 ^ 20 := UInt64.lt_iff_toNat_lt
  rw [request]
  split
  next hsmall =>
    rw [if_pos (hbound.mp hsmall)]
    rfl
  next hlarge => rw [if_neg (fun h => hlarge (hbound.mpr h)), hmask]

/-- No mapping is as large as the last sizes. -/
theorem request_le (n : UInt64) :
  (request n).toNat ≤ 2 ^ 64 - 4096
  := by
  rw [toNat_request]
  split <;> omega

/-- A length that is not 0 has room for the bytes. -/
theorem le_request {n : UInt64} (h : 0 < (request n).toNat) :
  n.toNat ≤ (request n).toNat
  := by
  have hlt := n.toNat_lt
  rw [toNat_request] at h ⊢
  split
  next hsmall => omega
  next hlarge =>
    rw [if_neg hlarge] at h
    omega

/-! ### What a call does -/

theorem fails_iff (p : Int64) :
  p < 0 ∧ p > -4096 ↔ Fails p
  := by
  rw [gt_iff_lt, Int64.lt_iff_toInt_lt, Int64.lt_iff_toInt_lt, Fails]
  have hzero : (0 : Int64).toInt = 0 := by decide
  have hpage : (-4096 : Int64).toInt = -4096 := by decide
  rw [hzero, hpage]
  omega

/-- A call takes the next bytes of the heap, or maps nothing and returns `NULL`, or takes the first
bytes of a new mapping. -/
theorem next_cases {s t : State} {c : Call} (h : s.next c = some t) :
  (s.heap.asks c.n = none
    ∧ t = ⟨(s.heap.bump (rounded c.n)).2, s.mapped, s.results ++ [⟨c.n, s.heap.heapCur⟩]⟩)
  ∨ (s.heap.asks c.n ≠ none ∧ Fails c.p
    ∧ t = ⟨s.heap, s.mapped, s.results ++ [⟨c.n, 0⟩]⟩)
  ∨ ∃ length, s.heap.asks c.n = some length ∧ ¬ Fails c.p ∧ Maps s.mapped (mapping c.p length)
    ∧ t = ⟨(Heap.bump ⟨c.p.toUInt64, c.p.toUInt64 + length⟩ (rounded c.n)).2,
        mapping c.p length :: s.mapped, s.results ++ [⟨c.n, c.p.toUInt64⟩]⟩
  := by
  rw [State.next, Heap.malloc] at h
  cases hasks : s.heap.asks c.n with
  | none =>
      simp only [hasks] at h
      left
      exact ⟨rfl, (Option.some.inj h).symm⟩
  | some length =>
      right
      simp only [hasks] at h
      by_cases hfails : Fails c.p
      · rw [if_pos ((fails_iff c.p).mpr hfails), if_pos hfails] at h
        left
        exact ⟨Option.some_ne_none _, hfails, (Option.some.inj h).symm⟩
      · rw [if_neg (fun hp => hfails ((fails_iff c.p).mp hp)), if_neg hfails] at h
        split at h
        next hmaps =>
          right
          exact ⟨length, rfl, hfails, hmaps, (Option.some.inj h).symm⟩
        next => cases h

/-- What is left of the mapping. -/
def Heap.rest (heap : Heap) : Region :=
  ⟨heap.heapCur.toNat, (heap.heapEnd - heap.heapCur).toNat⟩

theorem size_rest (heap : Heap) :
  heap.rest.size = (heap.heapEnd - heap.heapCur).toNat
  := rfl

theorem asks_eq_none_iff {heap : Heap} {n : UInt64} :
  heap.asks n = none ↔ heap.heapCur ≠ 0 ∧ (rounded n).toNat ≤ heap.rest.size
  := by
  rw [Heap.asks]
  split
  next h =>
    rw [UInt64.lt_iff_toNat_lt] at h
    constructor
    · intro hnone
      cases hnone
    · rintro ⟨hcur, hroom⟩
      rcases h with h | h
      · apply absurd h hcur
      · apply absurd hroom (Nat.not_le.mpr h)
  next h =>
    rw [not_or, UInt64.lt_iff_toNat_lt, Nat.not_lt] at h
    constructor
    · intro _
      apply h
    · intro _
      rfl

/-- For one of the last sizes it is asked when there is no room for sixteen bytes. -/
theorem asks_ne_none_iff {heap : Heap} {n : UInt64} (hwraps : ¬ n.toNat + 15 < 2 ^ 64) :
  heap.asks n ≠ none ↔ heap.heapCur = 0 ∨ heap.heapEnd - heap.heapCur < 16
  := by
  rw [Heap.asks, rounded_of_wraps hwraps]
  split
  next h => exact ⟨fun _ => h, fun _ => Option.some_ne_none _⟩
  next h => exact ⟨fun hne => absurd rfl hne, fun hfull => absurd hfull h⟩

theorem eq_request_of_asks {heap : Heap} {n length : UInt64} (h : heap.asks n = some length) :
  length = request (rounded n)
  := by
  rw [Heap.asks] at h
  split at h
  · apply (Option.some.inj h).symm
  · cases h

/-! ### The heap -/

/-- The region of a result that is not `NULL`. -/
def Result.region (result : Result) : Region := ⟨result.out.toNat, (rounded result.n).toNat⟩

/-- The regions of the results. -/
def grantedBy (results : List Result) : List Region :=
  (results.filter Result.found).map Result.region

/-- The rest of the mapping is aligned, spare and within the address space. -/
structure Heap.Ready (mapped granted : List Region) (heap : Heap) : Prop where
  spare : Spare mapped granted heap.rest
  aligned : 16 ∣ heap.heapCur.toNat
  bound : heap.heapCur.toNat + heap.rest.size ≤ 2 ^ 64

variable {heap : Heap} {mapped granted : List Region} {results : List Result} {n : UInt64}

theorem toNat_heapCur_bump (hbound : heap.heapCur.toNat + heap.rest.size ≤ 2 ^ 64)
    (hroom : n.toNat ≤ heap.rest.size) (hne : (heap.bump n).2.heapCur ≠ 0) :
  (heap.bump n).2.heapCur.toNat = heap.heapCur.toNat + n.toNat
  := by
  have hsum : (heap.bump n).2.heapCur.toNat = (heap.heapCur.toNat + n.toNat) % 2 ^ 64 :=
    UInt64.toNat_add _ _
  have hpos : (heap.bump n).2.heapCur.toNat ≠ 0 := fun h => hne (UInt64.toNat_inj.mp h)
  rw [hsum] at hpos ⊢
  apply Nat.mod_eq_of_lt
  have hle : heap.heapCur.toNat + n.toNat ≠ 2 ^ 64 := fun h => hpos (by rw [h, Nat.mod_self])
  omega

theorem rest_bump (hbound : heap.heapCur.toNat + heap.rest.size ≤ 2 ^ 64)
    (hroom : n.toNat ≤ heap.rest.size) (hne : (heap.bump n).2.heapCur ≠ 0) :
  (heap.bump n).2.rest = heap.rest.drop n.toNat
  := by
  have hcur := toNat_heapCur_bump hbound hroom hne
  have hsize : ((heap.bump n).2.heapEnd - (heap.bump n).2.heapCur).toNat
      = (heap.heapEnd - heap.heapCur).toNat - n.toNat := by
    rw [size_rest, UInt64.toNat_sub] at hroom hbound
    rw [UInt64.toNat_sub, UInt64.toNat_sub, hcur,
      show (heap.bump n).2.heapEnd = heap.heapEnd from rfl]
    have hend := heap.heapEnd.toNat_lt
    have hstart := heap.heapCur.toNat_lt
    omega
  rw [Heap.rest, hcur, hsize]
  rfl

/-- The heap stays ready when its next bytes are taken, unless they were its last. -/
theorem Heap.Ready.bump (h : heap.Ready mapped granted)
    (hroom : (rounded n).toNat ≤ heap.rest.size) {after : List Region}
    (hspare : Spare mapped after (heap.rest.drop (rounded n).toNat))
    (hne : (heap.bump (rounded n)).2.heapCur ≠ 0) :
  (heap.bump (rounded n)).2.Ready mapped after
  := by
  have hrest := rest_bump h.bound hroom hne
  have hcur := toNat_heapCur_bump h.bound hroom hne
  constructor
  · rw [hrest]
    apply hspare
  · rw [hcur]
    apply Nat.dvd_add h.aligned (dvd_rounded n)
  · have hbound := h.bound
    rw [hrest, hcur, size_drop]
    omega

/-! ### Every call -/

/-- The regions of the results are in order, and what is left of the mapping is ready. -/
structure State.Valid (s : State) : Prop where
  sound : Sound s.mapped (grantedBy s.results)
  aligned : ∀ r ∈ grantedBy s.results, 16 ∣ r.start
  served : ∀ result ∈ s.results, result.found → result.n.toNat ≤ (rounded result.n).toNat
  small : ∀ m ∈ s.mapped, m.size ≤ 2 ^ 64 - 4096
  ready : s.heap.heapCur ≠ 0 → s.heap.Ready s.mapped (grantedBy s.results)

theorem valid_initial :
  initial.Valid
  := by
  constructor
  · apply sound_nil
  · intro r hr
    cases hr
  · intro result hresult
    cases hresult
  · intro m hm
    cases hm
  · intro hne
    apply absurd rfl hne

theorem found_iff {result : Result} :
  result.found ↔ result.out ≠ 0
  := decide_eq_true_iff

theorem grantedBy_null (results : List Result) (n : UInt64) :
  grantedBy (results ++ [⟨n, 0⟩]) = grantedBy results
  := by
  rw [grantedBy, List.filter_append]
  simp [grantedBy, Result.found]

theorem grantedBy_found (results : List Result) (n : UInt64) (hne : heap.heapCur ≠ 0) :
  grantedBy (results ++ [⟨n, heap.heapCur⟩])
    = grantedBy results ++ [heap.rest.take (rounded n).toNat]
  := by
  rw [grantedBy, List.filter_append, List.map_append]
  simp [grantedBy, Result.found, hne]
  rfl

/-- A call that returns `NULL` keeps the state valid. -/
theorem State.Valid.null (h : State.Valid ⟨heap, mapped, results⟩) (n : UInt64) :
  State.Valid ⟨heap, mapped, results ++ [⟨n, 0⟩]⟩
  := by
  constructor
  · rw [grantedBy_null]
    apply h.sound
  · rw [grantedBy_null]
    apply h.aligned
  · intro result hresult hfound
    rcases List.mem_append.mp hresult with hresult | hresult
    · apply h.served result hresult hfound
    · obtain rfl := List.mem_singleton.mp hresult
      apply absurd rfl (found_iff.mp hfound)
  · apply h.small
  · intro hne
    rw [grantedBy_null]
    apply h.ready hne

/-- So does a call that takes the next bytes of a heap that is ready, if these are as many as were
asked for. -/
theorem State.Valid.serve (h : State.Valid ⟨heap, mapped, results⟩) (hne : heap.heapCur ≠ 0)
    (hroom : (rounded n).toNat ≤ heap.rest.size) (hserved : n.toNat ≤ (rounded n).toNat) :
  State.Valid ⟨(heap.bump (rounded n)).2, mapped, results ++ [⟨n, heap.heapCur⟩]⟩
  := by
  have hready := h.ready hne
  have hgranted := grantedBy_found results n hne
  constructor
  · rw [hgranted]
    apply h.sound.grant hready.spare hroom
  · intro r hr
    rw [hgranted] at hr
    rcases List.mem_append.mp hr with hr | hr
    · apply h.aligned r hr
    · obtain rfl := List.mem_singleton.mp hr
      apply hready.aligned
  · intro result hresult hfound
    rcases List.mem_append.mp hresult with hresult | hresult
    · apply h.served result hresult hfound
    · obtain rfl := List.mem_singleton.mp hresult
      apply hserved
  · apply h.small
  · intro hnext
    rw [hgranted]
    apply hready.bump hroom (hready.spare.grant hroom) hnext

/-- The first bytes of a mapping at the address 0 are lost, as their address is `NULL`. -/
theorem State.Valid.lose (h : State.Valid ⟨heap, mapped, results⟩)
    (hready : heap.Ready mapped (grantedBy results)) (hzero : heap.heapCur = 0)
    (hroom : (rounded n).toNat ≤ heap.rest.size) :
  State.Valid ⟨(heap.bump (rounded n)).2, mapped, results ++ [⟨n, heap.heapCur⟩]⟩
  := by
  have hnull := h.null n
  rw [← hzero] at hnull
  constructor
  · apply hnull.sound
  · apply hnull.aligned
  · apply hnull.served
  · apply hnull.small
  · intro hnext
    have hgranted := grantedBy_null results n
    rw [← hzero] at hgranted
    rw [hgranted]
    apply hready.bump hroom (hready.spare.drop hroom) hnext

/-- The heap that begins a mapping has the mapping as its rest. -/
theorem rest_mapping (p : Int64) (length : UInt64) :
  Heap.rest ⟨p.toUInt64, p.toUInt64 + length⟩ = mapping p length
  := by
  rw [Heap.rest, mapping, UInt64.add_comm, UInt64.add_sub_cancel]

/-- A new mapping is ready. -/
theorem ready_mapping (h : Sound mapped granted) {p : Int64} {length : UInt64}
    (hmaps : Maps mapped (mapping p length)) :
  Heap.Ready (mapping p length :: mapped) granted ⟨p.toUInt64, p.toUInt64 + length⟩
  := by
  constructor
  · rw [rest_mapping]
    apply h.spare_new hmaps.fresh
  · apply (show 16 ∣ 4096 by decide).trans hmaps.page
  · rw [rest_mapping]
    apply hmaps.bound

/-- The heap begins a new mapping. -/
theorem State.Valid.map (h : State.Valid ⟨heap, mapped, results⟩) {p : Int64} {length : UInt64}
    (hmaps : Maps mapped (mapping p length)) (hlength : length = request (rounded n)) :
  State.Valid ⟨⟨p.toUInt64, p.toUInt64 + length⟩, mapping p length :: mapped, results⟩
  := by
  constructor
  · apply h.sound.map
  · apply h.aligned
  · apply h.served
  · intro m hm
    rcases List.mem_cons.mp hm with rfl | hm
    · rw [mapping, hlength]
      apply request_le
    · apply h.small m hm
  · intro _
    apply ready_mapping h.sound hmaps

/-- The steps that meet the condition keep the state valid. -/
theorem State.Valid.next {s t : State} {c : Call} (h : s.Valid) (hkeeps : Keeps s c)
    (hstep : s.next c = some t) :
  t.Valid
  := by
  rcases next_cases hstep with ⟨hasks, rfl⟩ | ⟨-, -, rfl⟩ | ⟨length, hasks, hfails, hmaps, rfl⟩
  · obtain ⟨hcur, hroom⟩ := asks_eq_none_iff.mp hasks
    apply h.serve hcur hroom
    apply le_rounded
    by_contra hwraps
    rcases hkeeps with hlt | ⟨hheap, -⟩
    · apply hwraps hlt
    · apply (asks_ne_none_iff hwraps).mpr hheap hasks
  · apply h.null
  · have hlength := eq_request_of_asks hasks
    have hmapped := h.map hmaps hlength
    have hroom : (rounded c.n).toNat
        ≤ (Heap.rest ⟨c.p.toUInt64, c.p.toUInt64 + length⟩).size := by
      have hpos := hmaps.pos
      rw [rest_mapping, mapping]
      rw [mapping, hlength] at hpos
      rw [hlength]
      apply le_request hpos
    by_cases hzero : c.p.toUInt64 = 0
    · apply hmapped.lose (ready_mapping h.sound hmaps) hzero hroom
    · apply hmapped.serve hzero hroom
      apply le_rounded
      rcases hkeeps with hlt | ⟨-, hp⟩
      · apply hlt
      · rcases hp with hp | hp
        · apply absurd hp hfails
        · rw [hp] at hzero
          apply absurd rfl hzero

theorem State.Valid.allocated {s : State} (h : s.Valid) :
  s.Allocated
  := by
  use grantedBy s.results
  constructor
  · rw [grantedBy, List.forall₂_map_right_iff, List.forall₂_same]
    intro result hresult
    have hregion : result.region ∈ grantedBy s.results := List.mem_map_of_mem hresult
    obtain ⟨hmem, hfound⟩ := List.mem_filter.mp hresult
    constructor
    · rfl
    · apply h.aligned _ hregion
    · apply h.served result hmem hfound
    · apply rounded_pos
    · apply h.sound.inside _ hregion
  · apply h.sound.disjoint

/-- No mapping has room for one of the last sizes. -/
theorem not_allocated_of_wraps (hsmall : ∀ m ∈ mapped, m.size ≤ 2 ^ 64 - 4096) {out : UInt64}
    (hout : out ≠ 0) (hwraps : ¬ n.toNat + 15 < 2 ^ 64) :
  ¬ State.Allocated ⟨heap, mapped, results ++ [⟨n, out⟩]⟩
  := by
  rintro ⟨regions, hholds, -⟩
  obtain ⟨hlength, hholds⟩ := List.forall₂_iff_get.mp hholds
  have hfilter : Result.mk n out ∈ (results ++ [Result.mk n out]).filter Result.found := by
    apply List.mem_filter.mpr
    exact ⟨List.mem_append_right _ List.mem_cons_self, found_iff.mpr hout⟩
  obtain ⟨i, hi⟩ := List.get_of_mem hfilter
  have hregion := hholds i.1 i.2 (hlength ▸ i.2)
  rw [hi] at hregion
  obtain ⟨m, hm, hsubset⟩ := hregion.inside
  have hle := size_le_of_subset hregion.pos hsubset
  have hsize : n.toNat ≤ _ := hregion.size
  have hbound := hsmall m hm
  omega

/-- Behind any other step a result is smaller than what was asked for. -/
theorem State.Valid.not_allocated {s t : State} {c : Call} (h : s.Valid) (hkeeps : ¬ Keeps s c)
    (hstep : s.next c = some t) :
  ¬ t.Allocated
  := by
  rw [Keeps, not_or] at hkeeps
  obtain ⟨hwraps, hneither⟩ := hkeeps
  rw [← asks_ne_none_iff hwraps, not_and, not_or] at hneither
  rcases next_cases hstep with ⟨hasks, rfl⟩ | ⟨hasks, hfails, rfl⟩ | ⟨length, hasks, -, hmaps, rfl⟩
  · apply not_allocated_of_wraps h.small (asks_eq_none_iff.mp hasks).1 hwraps
  · apply absurd hfails (hneither hasks).1
  · apply not_allocated_of_wraps (h.map hmaps (eq_request_of_asks hasks)).small _ hwraps
    intro hzero
    apply (hneither (hasks ▸ Option.some_ne_none length)).2
    apply Int64.toBitVec_inj.mp (congrArg UInt64.toBitVec hzero)

/-- At any time of a run every result is `NULL` or a region of the size asked for, aligned to 16
bytes, inside one mapping and apart from the regions returned before it, when no call asks for one
of the last fifteen sizes while there is room or a mapping for sixteen bytes, and only then. -/
theorem allocated_iff {calls : List Call} {last : State}
    (hrun : Run State.next always initial calls last) :
  (∀ s, Passes State.next initial calls s → s.Allocated)
    ↔ Run State.next Keeps initial calls last
  := by
  apply passes_iff hrun valid_initial
  · intro s hs
    apply hs.allocated
  · intro s c t hs hkeeps hstep
    apply hs.next hkeeps hstep
  · intro s c t hs hkeeps hstep
    apply hs.not_allocated hkeeps hstep

/-- A block of 24 bytes from a first mapping, one of more than a mebibyte for which there is no
memory, the same from a second mapping, and one of no bytes from the rest of it. -/
def fourBlocks : List Call :=
  [⟨24, 0x7000000000⟩, ⟨0x100001, -12⟩, ⟨0x100001, 0x7000200000⟩, ⟨0, -12⟩]

/-- Their results are apart from each other. -/
theorem allocated_fourBlocks :
  (exec (guarded State.next Keeps) initial fourBlocks).isSome
    ∧ ∀ s, Passes State.next initial fourBlocks s → s.Allocated
  := by
  have hsome : (exec (guarded State.next Keeps) initial fourBlocks).isSome := by
    decide
  obtain ⟨s, hs⟩ := Option.isSome_iff_exists.mp hsome
  have hrun := run_of_exec_guarded hs
  use hsome
  apply (allocated_iff hrun.toAlways).mpr hrun

/-- A block of the largest size, with a first mapping. -/
def largestBlock : List Call := [⟨0xFFFFFFFFFFFFFFFF, 0x7000000000⟩]

/-- The pointer to sixteen bytes is returned for it. -/
theorem not_allocated_largestBlock :
  ¬ ∀ s, Passes State.next initial largestBlock s → s.Allocated
  := by
  intro hall
  have hexec : exec State.next initial largestBlock
      = some ⟨⟨0x7000000010, 0x7000100000⟩, [⟨0x7000000000, 0x100000⟩],
          [] ++ [⟨0xFFFFFFFFFFFFFFFF, 0x7000000000⟩]⟩ := by
    decide
  have hallocated := hall _ ⟨_, List.prefix_rfl, run_of_exec hexec⟩
  apply absurd hallocated
  apply not_allocated_of_wraps _ (by decide) (by decide)
  intro m hm
  obtain rfl := List.mem_singleton.mp hm
  decide

end Ssc.LibcShim
