/-
# `Idprom.Splitting` — where cutting into pages goes wrong

After a partial first page of `32 - r` bytes, with `r = base % 32`, the driver
counts `r` bytes as written.  The count is right if `r` is 0 or 16.  For a
smaller `r` the next chunk goes back over bytes already written and leaves its
page, unless the data ended with the first page; for a larger one the bytes in
between are never written.  And the first chunk is cut from the data without a
look at its size.
-/
import ProgrammableLoad.Idprom.Write

namespace Idprom

open Cpp Program

/-! ## The property -/

/-- The chunk lies inside one page. -/
def InPage (chunk : Nat × List Byte) : Prop :=
  chunk.1 % kPageSize + chunk.2.length ≤ kPageSize

/-- Writing `data` at `base` returns, cuts it at page boundaries, and changes
the memory in the cells of `data` only. -/
structure Splits (base : BitVec 16) (data : List Byte) : Prop where
  /-- `data.size() - bytesWritten` does not wrap. -/
  noUnderflow : base.toNat % kPageSize ≤ data.length
  writes : ∀ memory, ∃ t, (writeIdprom base data).run ⟨memory, []⟩ = .ok () t ∧
    (∀ chunk ∈ t.chunks, InPage chunk) ∧ t.memory = splice memory base.toNat data

/-- The page is entered at its start, or at its middle with data for the rest of
it, or in its first half with data that ends with the page. -/
def Splittable (base : BitVec 16) (data : List Byte) : Prop :=
  base.toNat % kPageSize = 0 ∨
    (base.toNat % kPageSize = 16 ∧ 16 ≤ data.length) ∨
    (base.toNat % kPageSize < 16 ∧ data.length = kPageSize - base.toNat % kPageSize)

/-! ## One transaction -/

theorem storeInPage_eq_splice (memory : Nat → Byte) (page offset : Nat) (data : List Byte)
    (h : offset + data.length ≤ kPageSize) :
    storeInPage memory page offset data = splice memory (page + offset) data := by
  induction data generalizing memory offset with
  | nil => simp [storeInPage]
  | cons b bs ih =>
      rw [List.length_cons] at h
      rw [storeInPage, ih _ _ (by omega), splice_cons, Nat.mod_eq_of_lt (by omega),
        Nat.add_assoc]

section Chunk

variable {base : Nat} {data : List Byte} {s : Eeprom}

theorem writeIdpromPage_run (h : base % kPageSize + data.length ≤ kPageSize) :
    (writeIdpromPage base data).run s
      = .ok () ⟨splice s.memory base data, s.chunks ++ [(base, data)]⟩ := by
  have hsize : ¬ data.length > kPageSize := by omega
  have hwrap : ¬ base % kPageSize + data.length > kPageSize := by omega
  have hstore := storeInPage_eq_splice s.memory (base / kPageSize * kPageSize)
    (base % kPageSize) data h
  rw [Nat.div_add_mod' base kPageSize] at hstore
  simp [writeIdpromPage, hsize, hwrap, pageWrite, hstore]

theorem writeIdpromPage_run_fault (h : kPageSize < base % kPageSize + data.length) :
    ∃ e, (writeIdpromPage base data).run s = .error e s := by
  by_cases hsize : data.length > kPageSize
  · exact ⟨_, by simp only [writeIdpromPage, if_pos hsize]; rfl⟩
  · exact ⟨_, by simp only [writeIdpromPage, if_neg hsize, if_pos h]; rfl⟩

end Chunk

theorem chunkAddress_mod (base k : Nat) :
    chunkAddress base k % kPageSize = (base + k) % kPageSize := by
  unfold chunkAddress kPageSize
  omega

theorem chunkAddress_of_lt {base k : Nat} (h : base + k < 2 ^ 16) :
    chunkAddress base k = base + k := Nat.mod_eq_of_lt h

/-! ## Where the count is right -/

/-- The first `k` bytes are in place, in chunks that each lie in a page. -/
structure Written (memory : Nat → Byte) (base : Nat) (data : List Byte) (k : Nat)
    (s : Eeprom) : Prop where
  memory_eq : s.memory = splice memory base (data.take k)
  inPage : ∀ chunk ∈ s.chunks, InPage chunk

section Right

variable {memory : Nat → Byte} {base : Nat} {data : List Byte}

theorem Written.empty (memory : Nat → Byte) (base : Nat) (data : List Byte) :
    Written memory base data 0 ⟨memory, []⟩ :=
  ⟨by simp, by simp⟩

/-- With all of the data written, the memory is what it should be. -/
theorem Written.whole {t : Eeprom} (ht : Written memory base data data.length t) :
    (∀ chunk ∈ t.chunks, InPage chunk) ∧ t.memory = splice memory base data := by
  have hmemory := ht.memory_eq
  rw [List.take_length] at hmemory
  exact ⟨ht.inPage, hmemory⟩

theorem Written.chunk {k n : Nat} {s : Eeprom} (hs : Written memory base data k s)
    (hk : k + n ≤ data.length) (hfit : (base + k) % kPageSize + n ≤ kPageSize)
    (hend : base + data.length ≤ 2 ^ 16) :
    ∃ t, (writeIdpromPage (chunkAddress base k) ((data.drop k).take n)).run s = .ok () t ∧
      Written memory base data (k + n) t := by
  have hlen : ((data.drop k).take n).length = n := by
    rw [List.length_take, List.length_drop]
    omega
  have hfit' : chunkAddress base k % kPageSize + ((data.drop k).take n).length
      ≤ kPageSize := by
    rw [chunkAddress_mod, hlen]
    exact hfit
  refine ⟨_, writeIdpromPage_run hfit', ?_, ?_⟩
  · show splice s.memory (chunkAddress base k) ((data.drop k).take n) = _
    rcases Nat.eq_zero_or_pos n with rfl | hn
    · simpa using hs.memory_eq
    · have htake : (data.take k).length = k := List.length_take_of_le (by omega)
      rw [chunkAddress_of_lt (by omega), hs.memory_eq, List.take_add, splice_append, htake]
  · intro chunk hchunk
    rcases List.mem_append.mp hchunk with hold | hnew
    · exact hs.inPage chunk hold
    · rw [List.mem_singleton.mp hnew]
      exact hfit'

theorem Written.fullPages : ∀ (pages : Nat) {k : Nat} {s : Eeprom},
    Written memory base data k s → (base + k) % kPageSize = 0 →
    k + pages * kPageSize ≤ data.length → base + data.length ≤ 2 ^ 16 →
    ∃ t, (writeFullPages base data pages k).run s = .ok (k + pages * kPageSize) t ∧
      Written memory base data (k + pages * kPageSize) t
  | 0, k, s, hs, _, _, _ => by
      rw [Nat.zero_mul, Nat.add_zero]
      exact ⟨s, rfl, hs⟩
  | pages + 1, k, s, hs, halign, hlen, hend => by
      rw [Nat.succ_mul] at hlen ⊢
      obtain ⟨u, hchunk, hu⟩ := hs.chunk (n := kPageSize) (by omega) (by omega) hend
      have halign' : (base + (k + kPageSize)) % kPageSize = 0 := by
        rw [← Nat.add_assoc, Nat.add_mod_right]
        exact halign
      obtain ⟨t, hrest, ht⟩ := hu.fullPages pages halign' (by omega) hend
      rw [show k + (pages * kPageSize + kPageSize) = k + kPageSize + pages * kPageSize by
        omega]
      refine ⟨t, ?_, ht⟩
      simp [writeFullPages, subspan_run s (show k + kPageSize ≤ data.length by omega),
        hchunk, hrest]

/-- From a page boundary on, everything left is written. -/
theorem Written.remaining {k : Nat} {s : Eeprom} (hs : Written memory base data k s)
    (halign : (base + k) % kPageSize = 0) (hk : k ≤ data.length)
    (hend : base + data.length ≤ 2 ^ 16) :
    ∃ t, (writeRemaining base data k).run s = .ok () t ∧
      Written memory base data data.length t := by
  have hpages : totalNumPages data.length k = (data.length - k) / kPageSize := by
    rw [totalNumPages, sizeSub_of_le hk (by rw [sizeBits]; omega)]
  have hfull : k + (data.length - k) / kPageSize * kPageSize ≤ data.length := by
    have := Nat.div_mul_le_self (data.length - k) kPageSize
    omega
  obtain ⟨u, hloop, hu⟩ := hs.fullPages ((data.length - k) / kPageSize) halign hfull hend
  by_cases hlast : (data.length - k) / kPageSize < data.length
  · have hrest : data.length - (k + (data.length - k) / kPageSize * kPageSize)
        = (data.length - k) % kPageSize := by
      have := Nat.div_add_mod' (data.length - k) kPageSize
      omega
    have hlt : (data.length - k) % kPageSize < kPageSize := Nat.mod_lt _ (by decide)
    have halign' : (base + (k + (data.length - k) / kPageSize * kPageSize)) % kPageSize
        = 0 := by
      rw [← Nat.add_assoc, Nat.add_mul_mod_self_right]
      exact halign
    obtain ⟨t, hchunk, ht⟩ := hu.chunk
      (n := data.length - (k + (data.length - k) / kPageSize * kPageSize))
      (by omega) (by omega) hend
    rw [Nat.add_sub_cancel' hfull] at ht
    refine ⟨t, ?_, ht⟩
    rw [writeRemaining, hpages, EStateM.run_bind, hloop]
    simp only [if_pos hlast, EStateM.run_bind, subspan_run u (Nat.add_sub_cancel' hfull).le]
    exact hchunk
  · -- no byte at all
    have hzero : data.length = 0 := by
      have := Nat.div_le_self (data.length - k) kPageSize
      by_contra hne
      have := Nat.div_lt_self (n := data.length - k) (k := kPageSize)
      unfold kPageSize at *
      omega
    obtain rfl : data = [] := List.length_eq_zero_iff.mp hzero
    refine ⟨u, ?_, ?_⟩
    · rw [writeRemaining, hpages, EStateM.run_bind, hloop]
      simp only [if_neg hlast]
      rfl
    · exact ⟨by simpa using hu.memory_eq, hu.inPage⟩

/-- With less than a page left, the rest is one transaction. -/
theorem writeRemaining_run_tail (base : Nat) {first : Nat} (s : Eeprom) (hle : first ≤ data.length)
    (hpos : 0 < data.length) (hsize : data.length ≤ 2 ^ 16)
    (hpage : data.length - first < kPageSize) :
    (writeRemaining base data first).run s
      = (writeIdpromPage (chunkAddress base first) (data.drop first)).run s := by
  have hnone : totalNumPages data.length first = 0 := by
    rw [totalNumPages, sizeSub_of_le hle (by rw [sizeBits]; omega)]
    exact Nat.div_eq_of_lt hpage
  have htake : (data.drop first).take (data.length - first) = data.drop first :=
    List.take_of_length_le (by rw [List.length_drop])
  simp only [writeRemaining, hnone, writeFullPages, pure_bind, if_pos hpos,
    EStateM.run_bind, subspan_run s (Nat.add_sub_cancel' hle).le, htake]

end Right

/-! ## The first page -/

section First

variable {base : BitVec 16} {data : List Byte}

theorem writeFirstPage_run_aligned (h : base.toNat % kPageSize = 0) (s : Eeprom) :
    (writeFirstPage base.toNat data).run s = .ok 0 s := by
  simp [writeFirstPage, h]

theorem writeFirstPage_run (h : base.toNat % kPageSize ≠ 0)
    (hlen : kPageSize - base.toNat % kPageSize ≤ data.length)
    (hend : base.toNat + data.length ≤ 2 ^ 16) (memory : Nat → Byte) :
    ∃ t, (writeFirstPage base.toNat data).run ⟨memory, []⟩
        = .ok (base.toNat % kPageSize) t ∧
      Written memory base.toNat data (kPageSize - base.toNat % kPageSize) t := by
  have hmod : base.toNat % kPageSize < kPageSize := Nat.mod_lt _ (by decide)
  obtain ⟨t, hchunk, ht⟩ := (Written.empty memory base.toNat data).chunk
    (n := kPageSize - base.toNat % kPageSize) (by omega) (by rw [Nat.add_zero]; omega) hend
  rw [Nat.zero_add] at ht
  rw [chunkAddress_of_lt (by have := base.isLt; omega), Nat.add_zero] at hchunk
  refine ⟨t, ?_, ht⟩
  simp only [writeFirstPage, if_pos h, EStateM.run_bind,
    subspan_run _ (show 0 + (kPageSize - base.toNat % kPageSize) ≤ data.length by omega),
    hchunk, EStateM.run_pure]

theorem writeFirstPage_run_fault (h : base.toNat % kPageSize ≠ 0)
    (hlen : data.length < kPageSize - base.toNat % kPageSize) (s : Eeprom) :
    ∃ e, (writeFirstPage base.toNat data).run s = .error e s := by
  have hshort : data.length < 0 + (kPageSize - base.toNat % kPageSize) := by omega
  exact ⟨_, by
    simp only [writeFirstPage, if_pos h, EStateM.run_bind, subspan_run_fault s hshort]
    rfl⟩

theorem splits_of_aligned (hend : base.toNat + data.length ≤ 2 ^ 16)
    (hzero : base.toNat % kPageSize = 0) : Splits base data := by
  refine ⟨by omega, ?_⟩
  intro memory
  obtain ⟨t, hrun, ht⟩ := (Written.empty memory base.toNat data).remaining
    (by rw [Nat.add_zero, hzero]) (Nat.zero_le _) hend
  refine ⟨t, ?_, ht.whole⟩
  rw [writeIdprom, EStateM.run_bind, writeFirstPage_run_aligned hzero]
  exact hrun

/-- From the middle of a page on, the bytes written are as many as those
counted. -/
theorem splits_of_half (hend : base.toNat + data.length ≤ 2 ^ 16)
    (h16 : base.toNat % kPageSize = 16) (hlen : 16 ≤ data.length) : Splits base data := by
  have hhalf : kPageSize - base.toNat % kPageSize = base.toNat % kPageSize := by
    rw [h16]
    rfl
  have halign : (base.toNat + base.toNat % kPageSize) % kPageSize = 0 := by
    unfold kPageSize at *
    omega
  refine ⟨by omega, ?_⟩
  intro memory
  obtain ⟨u, hfirst, hu⟩ := writeFirstPage_run (by omega) (by omega) hend memory
  rw [hhalf] at hu
  obtain ⟨t, hrun, ht⟩ := hu.remaining halign (by omega) hend
  refine ⟨t, ?_, ht.whole⟩
  rw [writeIdprom, EStateM.run_bind, hfirst]
  exact hrun

/-- Where the data ends with the first page, the last chunk only writes its end
once more. -/
theorem splits_of_first_page (hend : base.toNat + data.length ≤ 2 ^ 16)
    (hzero : base.toNat % kPageSize ≠ 0) (hlt : base.toNat % kPageSize < 16)
    (hlen : data.length = kPageSize - base.toNat % kPageSize) : Splits base data := by
  have hshort : base.toNat % kPageSize < data.length := by
    unfold kPageSize at *
    omega
  have hle := hshort.le
  have hfit : chunkAddress base.toNat (base.toNat % kPageSize) % kPageSize +
      (data.drop (base.toNat % kPageSize)).length ≤ kPageSize := by
    rw [chunkAddress_mod, List.length_drop]
    unfold kPageSize at *
    omega
  refine ⟨hle, ?_⟩
  intro memory
  obtain ⟨u, hfirst, hu⟩ := writeFirstPage_run hzero (by omega) hend memory
  rw [← hlen] at hu
  have htail := writeRemaining_run_tail base.toNat u hle (by omega) (by omega)
    (show data.length - base.toNat % kPageSize < kPageSize by omega)
  rw [writeIdpromPage_run hfit] at htail
  refine ⟨_, by rw [writeIdprom, EStateM.run_bind, hfirst]; exact htail, ?_, ?_⟩
  · intro chunk hchunk
    rcases List.mem_append.mp hchunk with hold | hnew
    · exact hu.inPage chunk hold
    · rw [List.mem_singleton.mp hnew]
      exact hfit
  · show splice u.memory (chunkAddress base.toNat (base.toNat % kPageSize)) _ = _
    rw [chunkAddress_of_lt (by omega), hu.memory_eq, List.take_length, splice_drop_self]

/-- Entered at a page boundary or at the middle of a page, or done with the
first page: everything is written. -/
theorem splits_of_splittable (hend : base.toNat + data.length ≤ 2 ^ 16)
    (h : Splittable base data) : Splits base data := by
  rcases h with hzero | ⟨h16, hlen⟩ | ⟨hlt, hlen⟩
  · exact splits_of_aligned hend hzero
  · exact splits_of_half hend h16 hlen
  · by_cases hzero : base.toNat % kPageSize = 0
    · exact splits_of_aligned hend hzero
    · exact splits_of_first_page hend hzero hlt hlen

end First

/-! ## Where the count is wrong -/

section Wrong

variable {base : BitVec 16} {data : List Byte}

/-- A full page that does not start at a page boundary is refused. -/
theorem writeRemaining_fault_of_page (hr : base.toNat % kPageSize ≠ 0)
    (h16 : base.toNat % kPageSize ≠ 16)
    (hpage : base.toNat % kPageSize + kPageSize ≤ data.length)
    (hend : base.toNat + data.length ≤ 2 ^ 16) (s : Eeprom) :
    ∃ e, (writeRemaining base.toNat data (base.toNat % kPageSize)).run s = .error e s := by
  have hpages : ∃ n, totalNumPages data.length (base.toNat % kPageSize) = n + 1 := by
    rw [totalNumPages, sizeSub_of_le (by omega) (by rw [sizeBits]; omega)]
    exact Nat.exists_eq_succ_of_ne_zero (Nat.div_pos (by omega) (by decide)).ne'
  obtain ⟨n, hn⟩ := hpages
  have hlen : ((data.drop (base.toNat % kPageSize)).take kPageSize).length = kPageSize := by
    rw [List.length_take, List.length_drop]
    omega
  have hwrap : kPageSize < chunkAddress base.toNat (base.toNat % kPageSize) % kPageSize +
      ((data.drop (base.toNat % kPageSize)).take kPageSize).length := by
    rw [chunkAddress_mod, hlen]
    unfold kPageSize at *
    omega
  obtain ⟨e, he⟩ := writeIdpromPage_run_fault (s := s) hwrap
  refine ⟨e, ?_⟩
  simp only [writeRemaining, hn, writeFullPages, EStateM.run_bind, subspan_run s hpage, he]

/-- Less than a page that would leave the page it is addressed to is refused. -/
theorem writeRemaining_fault_of_wrap (hle : base.toNat % kPageSize ≤ data.length)
    (hpos : 0 < data.length) (hpage : data.length < base.toNat % kPageSize + kPageSize)
    (hwrap : kPageSize < (base.toNat + base.toNat % kPageSize) % kPageSize +
      (data.length - base.toNat % kPageSize))
    (hend : base.toNat + data.length ≤ 2 ^ 16) (s : Eeprom) :
    ∃ e, (writeRemaining base.toNat data (base.toNat % kPageSize)).run s = .error e s := by
  have hwrap' : kPageSize < chunkAddress base.toNat (base.toNat % kPageSize) % kPageSize +
      (data.drop (base.toNat % kPageSize)).length := by
    rw [chunkAddress_mod, List.length_drop]
    exact hwrap
  obtain ⟨e, he⟩ := writeIdpromPage_run_fault (s := s) hwrap'
  exact ⟨e, (writeRemaining_run_tail _ s hle hpos (by omega) (by omega)).trans he⟩

/-- With fewer bytes written than counted, the byte in between keeps what it
held. -/
theorem splice_gap (memory : Nat → Byte) {base k r : Nat} {data : List Byte} (hk : k < r)
    (hr : r ≤ data.length) (hend : base + data.length ≤ 2 ^ 16) :
    splice (splice memory base (data.take k)) (chunkAddress base r) (data.drop r) (base + k)
      = memory (base + k) := by
  have hbefore : splice memory base (data.take k) (base + k) = memory (base + k) := by
    refine splice_of_ge memory base (data.take k) ?_
    rw [List.length_take]
    omega
  rcases Nat.eq_or_lt_of_le hr with rfl | hlt
  · rw [List.drop_length, splice_nil, hbefore]
  · rw [chunkAddress_of_lt (by omega), splice_of_lt _ _ _ (by omega), hbefore]

/-- Between the first page and the rest a byte is left out. -/
theorem not_splits_of_gap (h16 : 16 < base.toNat % kPageSize)
    (hle : base.toNat % kPageSize ≤ data.length)
    (hpage : data.length < base.toNat % kPageSize + kPageSize)
    (hend : base.toNat + data.length ≤ 2 ^ 16) : ¬ Splits base data := by
  intro h
  have hmod : base.toNat % kPageSize < kPageSize := Nat.mod_lt _ (by decide)
  have hgap : kPageSize - base.toNat % kPageSize < base.toNat % kPageSize := by
    unfold kPageSize at *
    omega
  have hmem : kPageSize - base.toNat % kPageSize < data.length := by omega
  -- a memory that holds something else in the byte left out
  let memory : Nat → Byte := fun _ => data[kPageSize - base.toNat % kPageSize] + 1
  obtain ⟨u, hfirst, hu⟩ := writeFirstPage_run (by omega) (by omega) hend memory
  obtain ⟨t, hrun, _, hmemory⟩ := h.writes memory
  rw [writeIdprom, EStateM.run_bind, hfirst] at hrun
  have htail := writeRemaining_run_tail base.toNat u hle (by omega) (by omega)
    (show data.length - base.toNat % kPageSize < kPageSize by omega)
  simp only [htail] at hrun
  by_cases hfit : chunkAddress base.toNat (base.toNat % kPageSize) % kPageSize +
      (data.drop (base.toNat % kPageSize)).length ≤ kPageSize
  · rw [writeIdpromPage_run hfit] at hrun
    cases hrun
    have hbyte := congrFun hmemory (base.toNat + (kPageSize - base.toNat % kPageSize))
    simp only [hu.memory_eq] at hbyte
    rw [splice_gap memory hgap hle hend, splice_add, List.getElem?_eq_getElem hmem,
      Option.getD_some] at hbyte
    have hne : ∀ b : Byte, b + 1 ≠ b := by decide
    exact hne _ hbyte
  · obtain ⟨e, he⟩ := writeIdpromPage_run_fault (s := u) (Nat.lt_of_not_le hfit)
    rw [he] at hrun
    cases hrun

theorem splittable_of_splits (hend : base.toNat + data.length ≤ 2 ^ 16)
    (h : Splits base data) : Splittable base data := by
  by_contra hnot
  simp only [Splittable, not_or, not_and_or] at hnot
  obtain ⟨hr, h16, hfirstPage⟩ := hnot
  have hmod : base.toNat % kPageSize < kPageSize := Nat.mod_lt _ (by decide)
  obtain ⟨t, hrun, _⟩ := h.writes fun _ => 0
  rw [writeIdprom, EStateM.run_bind] at hrun
  rcases Nat.lt_or_ge data.length (kPageSize - base.toNat % kPageSize) with hshort | hlong
  · obtain ⟨e, he⟩ := writeFirstPage_run_fault hr hshort ⟨fun _ => 0, []⟩
    rw [he] at hrun
    cases hrun
  · obtain ⟨u, hfirst, _⟩ := writeFirstPage_run hr hlong hend fun _ => 0
    simp only [hfirst] at hrun
    have hne16 : base.toNat % kPageSize ≠ 16 := by
      unfold kPageSize at *
      omega
    rcases Nat.lt_or_ge data.length (base.toNat % kPageSize + kPageSize) with hlt | hge
    · rcases Nat.lt_or_ge 16 (base.toNat % kPageSize) with hhigh | hlow
      · exact not_splits_of_gap hhigh h.noUnderflow hlt hend h
      · obtain ⟨e, he⟩ := writeRemaining_fault_of_wrap h.noUnderflow
          (by unfold kPageSize at *; omega) hlt (by unfold kPageSize at *; omega) hend u
        rw [he] at hrun
        cases hrun
    · obtain ⟨e, he⟩ := writeRemaining_fault_of_page hr hne16 hge hend u
      rw [he] at hrun
      cases hrun

end Wrong

/-- Writing a byte string that fits the EEPROM is right, whatever the EEPROM
held, if and only if it is splittable. -/
theorem splits_iff_splittable (base : BitVec 16) (data : List Byte)
    (hend : base.toNat + data.length ≤ 2 ^ 16) :
    Splits base data ↔ Splittable base data :=
  ⟨splittable_of_splits hend, splits_of_splittable hend⟩

theorem splits_from_middle : Splits 0x10 (List.replicate 100 0xa5) :=
  (splits_iff_splittable 0x10 (List.replicate 100 0xa5) (by decide)).mpr
    (Or.inr (Or.inl (by decide)))

/-- Four bytes in the middle of a page: the first chunk is cut too long. -/
theorem not_splits_short : ¬ Splits 0x04 [1, 2, 3, 4] := by
  intro h
  obtain ⟨t, hrun, _⟩ := h.writes fun _ => 0
  cases hrun

end Idprom
