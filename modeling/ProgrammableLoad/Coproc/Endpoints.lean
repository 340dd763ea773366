/-
# `Coproc.Endpoints` — finding the device of a new endpoint

The kernel gives the device of a new endpoint the lowest number that is free,
and does not say which.  `connectRpcEndpoint` foretells it from the listing of
/dev, as the highest number there plus one.  That is right just when the
numbers that are there have no gap, `findsDevice_iff`.

The loop reads the digits of a name through a match in a string that is gone
by then.  The standard leaves that undefined; `intact` says that the bytes are
still where they were.
-/
import ProgrammableLoad.Cpp.Fault
import ProgrammableLoad.Theory.Handles

namespace Coproc

open Cpp Handles

/-! ## The directory -/

/-- An entry of /dev. -/
structure DirEntry where
  name : List Char
  isCharacterFile : Bool

def DirEntry.path (entry : DirEntry) : List Char := "/dev/".toList ++ entry.name

/-- What `kNameRegex`, that is `rpmsg(\d+)`, captures in a name that matches. -/
def kNameRegex (name : List Char) : Option (List Char) :=
  let digits := name.drop 5
  if name.take 5 = "rpmsg".toList ∧ digits ≠ [] ∧ digits.all Char.isDigit then some digits
  else none

/-- The name of the device with a number. -/
def deviceName (n : Nat) : List Char := "rpmsg".toList ++ Nat.toDigits 10 n

/-- The numbers of the names that match. -/
def numbers (entries : List DirEntry) : Finset Nat :=
  (entries.filterMap fun entry =>
    (kNameRegex entry.name).map fun digits => Nat.ofDigitChars 10 digits 0).toFinset

/-- The listing of /dev.  Only the devices of endpoints have names that match;
their number is an `int` of the kernel. -/
structure DevDir where
  entries : List DirEntry
  device_of_match : ∀ entry ∈ entries, ∀ digits, kNameRegex entry.name = some digits →
    ∃ n < 2 ^ 31, digits = Nat.toDigits 10 n

/-! ## The function -/

/-- `sub_match::str()` of a match in a string that was destroyed. -/
def str (intact : Bool) (digits : List Char) : Except Fault (List Char) :=
  if intact then .ok digits else .error (.undefined "std::sub_match::str")

/-- `std::stoul`, of a text that is all digits. -/
def stoul (digits : List Char) : Except Fault Nat :=
  let num := Nat.ofDigitChars 10 digits 0
  if num < 2 ^ 32 then .ok num else .error (.thrown (.outOfRange "stoul"))

/-- The loop over the directory. -/
def nextChrdevNum (intact : Bool) : List DirEntry → Nat → Except Fault Nat
  | [], next => .ok next
  | entry :: entries, next =>
      match kNameRegex entry.name with
      | none => nextChrdevNum intact entries next
      | some digits => do
          let sm ← str intact digits
          let num ← stoul sm
          nextChrdevNum intact entries (if next ≤ num then (num + 1) % 2 ^ sizeBits else next)

/-- `struct rpmsg_endpoint_info` -/
structure RpmsgEndpointInfo where
  name : List Byte
  src : BitVec 32
  dst : BitVec 32

def kRpmsgChrdevBase : List Char := "/dev/rpmsg".toList

/-- `create` is the entry that the ioctl makes in /dev, if it does not fail. -/
def connectRpcEndpoint (intact : Bool)
    (create : RpmsgEndpointInfo → List DirEntry → Option DirEntry) (dev : List DirEntry)
    (name : String) (address : BitVec 32) : Except Fault (List Char) := do
  let nextChrdevNum ← nextChrdevNum intact dev 0
  let ept : RpmsgEndpointInfo :=
    ⟨(strncpy (ascii name ++ [0]) 32).set 31 0, -1, address⟩
  match create ept dev with
  | none => .error (.thrown (.systemError "RPMSG_CREATE_EPT_IOCTL"))
  | some created =>
      let path := kRpmsgChrdevBase ++ Nat.toDigits 10 nextChrdevNum
      match (dev ++ [created]).find? fun entry => entry.path = path with
      | none => .error (.thrown (.runtimeError "rpmsg_chrdev not created where we expected!"))
      | some entry =>
          if entry.isCharacterFile then
            .ok path
          else
            .error (.thrown (.runtimeError "rpmsg_chrdev is not a character device!"))

/-! ## What the kernel makes -/

/-- The lowest number that is free. -/
def lowest (s : Finset Nat) : Nat := lowestFrom s s.card 0

/-- The new device is a character device with the lowest number that is free. -/
def newDevice (dev : List DirEntry) : DirEntry := ⟨deviceName (lowest (numbers dev)), true⟩

/-- The path that the function gives is that of the new device. -/
def FindsDevice (intact : Bool) (dev : DevDir) (name : String) (address : BitVec 32) : Prop :=
  connectRpcEndpoint intact (fun _ dev => some (newDevice dev)) dev.entries name address
    = .ok (newDevice dev.entries).path

/-- With a number every lower one is there. -/
def NoGap (s : Finset Nat) : Prop := ∀ n ∈ s, ∀ m < n, m ∈ s

/-! ## Names and numbers -/

section Names

variable {entries : List DirEntry} {entry : DirEntry} {digits : List Char} {n m : Nat}

theorem deviceName_injective (h : deviceName n = deviceName m) : n = m := by
  have hdigits : Nat.toDigits 10 n = Nat.toDigits 10 m := List.append_cancel_left h
  calc
    n = Nat.ofDigitChars 10 (Nat.toDigits 10 n) 0 := Nat.ofDigitChars_ten_toDigits.symm
    _ = Nat.ofDigitChars 10 (Nat.toDigits 10 m) 0 := by rw [hdigits]
    _ = m := Nat.ofDigitChars_ten_toDigits

theorem kNameRegex_deviceName (n : Nat) :
    kNameRegex (deviceName n) = some (Nat.toDigits 10 n) := by
  have hdigits : (Nat.toDigits 10 n).all Char.isDigit = true := by
    rw [List.all_eq_true]
    intro c hc
    exact Nat.isDigit_of_mem_toDigits (by decide) (by decide) hc
  exact if_pos ⟨rfl, Nat.toDigits_ne_nil, hdigits⟩

theorem mem_numbers : n ∈ numbers entries ↔
    ∃ entry ∈ entries, ∃ digits, kNameRegex entry.name = some digits ∧
      Nat.ofDigitChars 10 digits 0 = n := by
  simp only [numbers, List.mem_toFinset, List.mem_filterMap, Option.map_eq_some_iff]

theorem mem_numbers_of_name (h : entry ∈ entries) (hname : entry.name = deviceName n) :
    n ∈ numbers entries := by
  refine mem_numbers.mpr ⟨entry, h, Nat.toDigits 10 n, ?_, Nat.ofDigitChars_ten_toDigits⟩
  rw [hname, kNameRegex_deviceName]

theorem numbers_cons_of_none (h : kNameRegex entry.name = none) :
    numbers (entry :: entries) = numbers entries := by
  rw [numbers, List.filterMap_cons, h]
  rfl

theorem numbers_cons_of_some (h : kNameRegex entry.name = some digits) :
    numbers (entry :: entries) = insert (Nat.ofDigitChars 10 digits 0) (numbers entries) := by
  rw [numbers, List.filterMap_cons, h]
  exact List.toFinset_cons

theorem lowest_not_mem (s : Finset Nat) : lowest s ∉ s :=
  lowestFrom_not_mem (Finset.card_le_card (Finset.filter_subset _ _))

theorem mem_of_lt_lowest {s : Finset Nat} (h : m < lowest s) : m ∈ s :=
  mem_of_lt_lowestFrom (Nat.zero_le m) h

end Names

/-! ## The loop -/

section Loop

variable {entries : List DirEntry} {next highest : Nat}

/-- `highest` is `next`, or one more than the highest number if that is more. -/
structure Above (s : Finset Nat) (next highest : Nat) : Prop where
  le : next ≤ highest
  lt : ∀ n ∈ s, n < highest
  reached : highest = next ∨ ∃ n ∈ s, highest = n + 1

theorem Above.insert {s : Finset Nat} {n : Nat}
    (h : Above s (if next ≤ n then n + 1 else next) highest) :
    Above (insert n s) next highest := by
  obtain ⟨hle, hlt, hreached⟩ := h
  have hlt' : ∀ m ∈ s, m < highest := hlt
  split at hle
  · rename_i hnext
    rw [if_pos hnext] at hreached
    refine ⟨by omega, ?_, .inr ?_⟩
    · rw [Finset.forall_mem_insert]
      exact ⟨hle, hlt'⟩
    · rcases hreached with rfl | ⟨m, hm, rfl⟩
      · exact ⟨n, Finset.mem_insert_self n s, rfl⟩
      · exact ⟨m, Finset.mem_insert_of_mem hm, rfl⟩
  · rename_i hnext
    rw [if_neg hnext] at hreached
    refine ⟨hle, ?_, ?_⟩
    · rw [Finset.forall_mem_insert]
      exact ⟨by omega, hlt'⟩
    · rcases hreached with rfl | ⟨m, hm, rfl⟩
      · exact .inl rfl
      · exact .inr ⟨m, Finset.mem_insert_of_mem hm, rfl⟩

/-- What is foretold is the lowest number just when there is no gap. -/
theorem Above.eq_lowest_iff {s : Finset Nat} (h : Above s 0 highest) :
    highest = lowest s ↔ NoGap s := by
  constructor
  · rintro rfl n hn m hm
    exact mem_of_lt_lowest (Nat.lt_trans hm (h.lt n hn))
  · intro hgap
    refine Nat.le_antisymm ?_ (Nat.le_of_not_lt fun hlt => ?_)
    · rcases h.reached with rfl | ⟨n, hn, rfl⟩
      · exact Nat.zero_le _
      · refine Nat.lt_of_not_le fun hle => lowest_not_mem s ?_
        rcases Nat.eq_or_lt_of_le hle with heq | hlt
        · rw [heq]
          exact hn
        · exact hgap n hn _ hlt
    · exact absurd (h.lt _ (mem_of_lt_lowest hlt)) (Nat.lt_irrefl _)

theorem nextChrdevNum_intact (next : Nat)
    (h : ∀ entry ∈ entries, ∀ digits, kNameRegex entry.name = some digits →
      ∃ n < 2 ^ 31, digits = Nat.toDigits 10 n) :
    ∃ highest, nextChrdevNum true entries next = .ok highest ∧
      Above (numbers entries) next highest := by
  induction entries generalizing next with
  | nil => exact ⟨next, rfl, le_rfl, nofun, .inl rfl⟩
  | cons entry entries ih =>
      have hrest := fun e he => h e (List.mem_cons_of_mem entry he)
      rw [nextChrdevNum]
      cases hname : kNameRegex entry.name with
      | none =>
          rw [numbers_cons_of_none hname]
          exact ih next hrest
      | some digits =>
          obtain ⟨n, hn, rfl⟩ := h entry List.mem_cons_self digits hname
          have hstoul : stoul (Nat.toDigits 10 n) = .ok n := by
            rw [stoul, Nat.ofDigitChars_ten_toDigits]
            exact if_pos (by omega)
          have hwrap : (n + 1) % 2 ^ sizeBits = n + 1 := Nat.mod_eq_of_lt (by
            rw [sizeBits]
            omega)
          rw [numbers_cons_of_some hname, Nat.ofDigitChars_ten_toDigits]
          obtain ⟨highest, hrun, habove⟩ := ih (if next ≤ n then n + 1 else next) hrest
          refine ⟨highest, ?_, ?_⟩
          · rw [← hwrap] at hrun
            simpa [str, hstoul, bind, Except.bind] using hrun
          · exact habove.insert

/-- Without the bytes only a directory with no device can be gone through. -/
theorem nextChrdevNum_not_intact (entries : List DirEntry) (next : Nat) :
    (numbers entries = ∅ ∧ nextChrdevNum false entries next = .ok next) ∨
      (numbers entries ≠ ∅ ∧ ∃ op, nextChrdevNum false entries next = .error (.undefined op)) := by
  induction entries with
  | nil => exact .inl ⟨rfl, rfl⟩
  | cons entry entries ih =>
      rw [nextChrdevNum]
      cases hname : kNameRegex entry.name with
      | none =>
          rw [numbers_cons_of_none hname]
          exact ih
      | some digits =>
          rw [numbers_cons_of_some hname]
          exact .inr ⟨Finset.insert_ne_empty _ _, _, rfl⟩

end Loop

/-! ## Finding the device -/

section Finds

variable {dev : DevDir} {name : String} {address : BitVec 32} {intact : Bool}
  {entries : List DirEntry} {highest k : Nat}

theorem path_eq_iff (entry : DirEntry) (n : Nat) :
    entry.path = kRpmsgChrdevBase ++ Nat.toDigits 10 n ↔ entry.name = deviceName n := by
  have hbase : kRpmsgChrdevBase ++ Nat.toDigits 10 n = "/dev/".toList ++ deviceName n := rfl
  rw [hbase, DirEntry.path]
  exact List.append_right_inj _

/-- With a number above all that were there only the new entry may be found. -/
theorem find_created (h : ∀ n ∈ numbers entries, n < highest) :
    (entries ++ [newDevice entries]).find?
        (fun entry => entry.path = kRpmsgChrdevBase ++ Nat.toDigits 10 highest)
      = if highest = lowest (numbers entries) then some (newDevice entries) else none := by
  have hold : entries.find?
      (fun entry => entry.path = kRpmsgChrdevBase ++ Nat.toDigits 10 highest) = none := by
    rw [List.find?_eq_none]
    intro entry hentry hpath
    have hname := (path_eq_iff entry highest).mp (of_decide_eq_true hpath)
    exact absurd (h highest (mem_numbers_of_name hentry hname)) (Nat.lt_irrefl highest)
  have hnew : (newDevice entries).path = kRpmsgChrdevBase ++ Nat.toDigits 10 highest ↔
      highest = lowest (numbers entries) := by
    rw [path_eq_iff]
    exact ⟨fun hname => (deviceName_injective hname).symm, fun heq => congrArg deviceName heq.symm⟩
  rw [List.find?_append, hold, Option.none_or]
  split
  · rename_i heq
    exact List.find?_cons_of_pos (decide_eq_true (hnew.mpr heq))
  · rename_i hne
    refine (List.find?_cons_of_neg ?_).trans List.find?_nil
    intro hpath
    exact hne (hnew.mp (of_decide_eq_true hpath))

/-- What the function foretells is above all that is there, so that it is the
path of the new device or of no entry at all. -/
theorem findsDevice_of_next (h : nextChrdevNum intact dev.entries 0 = .ok highest)
    (habove : Above (numbers dev.entries) 0 highest) :
    FindsDevice intact dev name address ↔ NoGap (numbers dev.entries) := by
  rw [← habove.eq_lowest_iff, FindsDevice, connectRpcEndpoint, h]
  simp only [bind, Except.bind, find_created habove.lt]
  by_cases heq : highest = lowest (numbers dev.entries)
  · rw [if_pos heq]
    refine iff_of_true ?_ heq
    rw [heq]
    rfl
  · rw [if_neg heq]
    refine iff_of_false ?_ heq
    intro hok
    cases hok

/-- The function finds the device just when the numbers that are there have no
gap; where the bytes of the destroyed string are lost, there must be none. -/
theorem findsDevice_iff (intact : Bool) (dev : DevDir) (name : String) (address : BitVec 32) :
    FindsDevice intact dev name address ↔
      NoGap (numbers dev.entries) ∧ (intact = false → numbers dev.entries = ∅) := by
  cases intact with
  | true =>
      obtain ⟨highest, hnext, habove⟩ := nextChrdevNum_intact 0 dev.device_of_match
      rw [findsDevice_of_next hnext habove]
      exact ⟨fun hgap => ⟨hgap, nofun⟩, And.left⟩
  | false =>
      rcases nextChrdevNum_not_intact dev.entries 0 with ⟨hempty, hnext⟩ | ⟨hne, op, hnext⟩
      · have habove : Above (numbers dev.entries) 0 0 := by
          rw [hempty]
          exact ⟨le_rfl, nofun, .inl rfl⟩
        rw [findsDevice_of_next hnext habove]
        exact ⟨fun hgap => ⟨hgap, fun _ => hempty⟩, And.left⟩
      · refine iff_of_false ?_ fun h => hne (h.2 rfl)
        rw [FindsDevice, connectRpcEndpoint, hnext]
        intro hok
        cases hok

/-- Of two devices the first was removed. -/
def gapEntries : List DirEntry :=
  [⟨"null".toList, true⟩, ⟨"rpmsg_ctrl0".toList, true⟩, ⟨deviceName 1, true⟩]

theorem device_of_gapEntries : ∀ entry ∈ gapEntries, ∀ digits,
    kNameRegex entry.name = some digits → ∃ n < 2 ^ 31, digits = Nat.toDigits 10 n := by
  intro entry hentry digits hmatch
  simp only [gapEntries, List.mem_cons, List.not_mem_nil, or_false] at hentry
  rcases hentry with rfl | rfl | rfl
  · cases hmatch
  · cases hmatch
  · rw [kNameRegex_deviceName] at hmatch
    exact ⟨1, by decide, (Option.some.inj hmatch).symm⟩

/-- The kernel makes the first device anew, and the third is looked for. -/
theorem gap_not_findsDevice :
    ¬ FindsDevice true ⟨gapEntries, device_of_gapEntries⟩ "confd" 0x421 := by
  intro hfinds
  cases hfinds

end Finds

end Coproc
