import Trajectory.Proofs.Tar.Cut
/-!
# Scans of bytes that nobody vouches for

A scan of any bytes is bounded by them. Each entry that it finds has its header inside, the headers
follow each other, and a size, which is read from a field of twelve bytes, is below `2 ^ 36`. So
there are no more entries than blocks, and no sum of an offset and a size goes far past the end of
the bytes. Behind the last entry the scan meets at most one fault, and then it is over for good.
-/
namespace Trajectory.Tar

/-! ## Numbers in a header -/

namespace HeaderFault

/-- The offset that a fault reports. -/
def offset : HeaderFault → Nat
  | magic offset | checksum offset _ _ | octal offset => offset

/-- The fault says that the format's mark is missing. -/
def IsMagic (fault : HeaderFault) : Prop := ∃ offset, fault = .magic offset

end HeaderFault

namespace Header

variable {block bytes : List UInt8} {offset value : Nat}

/-- An octal digit is below eight. -/
theorem octalDigit?_lt {byte : UInt8} (read : octalDigit? byte = some value) : value < 8 := by
  unfold octalDigit? at read
  split at read
  · next within =>
    have bound : byte.toNat ≤ 55 := UInt8.le_iff_toNat_le.mp within.2
    have same : byte.toNat - 48 = value := Option.some.inj read
    omega
  · contradiction

/-- Each digit multiplies by eight at most. -/
theorem foldlM_lt {start : Nat}
    (read : bytes.foldlM (fun value byte => (octalDigit? byte).map (value * 8 + ·)) start =
      some value) : value < (start + 1) * 8 ^ bytes.length := by
  induction bytes generalizing start with
  | nil =>
    have same : start = value := Option.some.inj read
    simp only [List.length_nil, Nat.pow_zero]
    omega
  | cons byte rest ih =>
    cases digit : octalDigit? byte with
    | none => simp [digit] at read
    | some found =>
      have small := octalDigit?_lt digit
      simp only [List.foldlM_cons, digit, Option.map_some, Option.bind_eq_bind,
        Option.bind_some] at read
      have later := ih read
      have carried : start * 8 + found + 1 ≤ (start + 1) * 8 := by omega
      have scaled := Nat.mul_le_mul_right (8 ^ rest.length) carried
      have power : (start + 1) * 8 ^ (rest.length + 1) =
          (start + 1) * 8 * 8 ^ rest.length := by
        rw [Nat.pow_succ, Nat.mul_comm (8 ^ rest.length), Nat.mul_assoc]
      rw [List.length_cons, power]
      omega

/-- The number in a field is below the power of eight that the width of the field gives, whether the
digits end before the field does or not. -/
theorem octal?_lt (read : octal? bytes = some value) : value < 8 ^ bytes.length := by
  unfold octal? at read
  have shorter := (List.dropWhile_suffix (· = (32 : UInt8)) (l := bytes)).length_le
  have digits := (List.takeWhile_prefix (fun byte : UInt8 => byte ≠ 0 ∧ byte ≠ 32)
    (l := bytes.dropWhile (· = 32))).length_le
  have widened := Nat.pow_le_pow_right (show 0 < 8 by decide) (Nat.le_trans digits shorter)
  split at read
  · contradiction
  · have bound := foldlM_lt read
    rw [Nat.zero_add, Nat.one_mul] at bound
    exact Nat.lt_of_lt_of_le bound widened

/-- The size that a header records is below `2 ^ 36`. -/
theorem size_lt_of_decode {header : Header} (decoded : decode block offset = .ok (some header)) :
    header.size < 2 ^ 36 := by
  have bound := octal?_lt (decode_eq_some_iff.mp decoded).2.2.1
  have width : (field block 124 12).length ≤ 12 := List.length_take_le ..
  have widest := Nat.pow_le_pow_right (show 0 < 8 by decide) width
  have same : 8 ^ 12 = 2 ^ 36 := by decide
  omega

/-- A block that is no header is reported at its offset. -/
theorem offset_of_decode {fault : HeaderFault} (failed : decode block offset = .error fault) :
    fault.offset = offset := by
  unfold decode at failed
  split at failed
  · contradiction
  · split at failed
    · rw [← Except.error.inj failed]
      rfl
    · split at failed
      · rw [← Except.error.inj failed]
        rfl
      · split at failed
        · rw [← Except.error.inj failed]
          rfl
        · split at failed
          · rw [← Except.error.inj failed]
            rfl
          · contradiction

end Header

/-- The padded contents of an entry end less than `2 ^ 36` bytes behind its header. -/
theorem entryLength_le {size : Nat} (small : size < 2 ^ 36) :
    entryLength size ≤ blockLength + 2 ^ 36 := by
  by_cases whole : size % 512 = 0
  · simp only [entryLength, paddingLength, blockLength, whole, ↓reduceIte]
    omega
  · simp only [entryLength, paddingLength, blockLength, whole, ↓reduceIte]
    omega

/-! ## What is found at an offset -/

section FindingAt

variable {data : List UInt8} {offset : Nat}

/-- An entry is found where a block is its header. -/
theorem findingAt_eq_entry_iff {entry : Entry} :
    findingAt data offset = .entry entry ↔
      offset + blockLength ≤ data.length ∧ entry.offset = offset + blockLength ∧
        Header.decode ((data.drop offset).take blockLength) offset =
          .ok (some ⟨entry.path, entry.size⟩) := by
  have whole : ((data.drop offset).take blockLength).length = blockLength ↔
      offset + blockLength ≤ data.length := by
    have positive : 0 < blockLength := by decide
    rw [List.length_take, List.length_drop]
    omega
  obtain ⟨path, start, size⟩ := entry
  unfold findingAt
  dsimp only
  split
  · next long =>
    rw [Scanner.classify]
    simp only [whole.mp long, true_and]
    split
    · next header decoded =>
      simp only [decoded, Finding.entry.injEq, Entry.mk.injEq, Except.ok.injEq, Option.some.injEq]
      obtain ⟨read, length⟩ := header
      simp only [Header.mk.injEq]
      constructor
      · rintro ⟨rfl, rfl, rfl⟩
        exact ⟨rfl, rfl, rfl⟩
      · rintro ⟨rfl, rfl, rfl⟩
        exact ⟨rfl, rfl, rfl⟩
    · next ended => simp [ended]
    · next place unmarked =>
      split <;> simp [unmarked]
    · next fault _ failed => simp [failed]
  · next short =>
    have cut : ¬ offset + blockLength ≤ data.length := mt whole.mpr short
    simp only [cut, false_and, iff_false]
    split <;> simp

/-- A fault is found where a block should be a header and is not. A missing mark is a fault only at
the start. -/
theorem fault_of_findingAt {error : Error} (failed : findingAt data offset = .failed error) :
    ∃ fault, error = .header fault ∧ fault.offset = offset ∧ (fault.IsMagic → offset = 0) := by
  unfold findingAt at failed
  dsimp only at failed
  split at failed
  · unfold Scanner.classify at failed
    split at failed
    · contradiction
    · contradiction
    · next place unmarked =>
      split at failed
      · next start =>
        obtain rfl := Finding.failed.inj failed
        exact ⟨.magic place, rfl, Header.offset_of_decode unmarked, fun _ => start⟩
      · contradiction
    · next fault others damaged =>
      obtain rfl := Finding.failed.inj failed
      refine ⟨fault, rfl, Header.offset_of_decode damaged, ?_⟩
      rintro ⟨place, rfl⟩
      exact absurd rfl (others place)
  · split at failed <;> contradiction

end FindingAt

/-! ## Trails -/

namespace Trail

variable {data : List UInt8} {start stop : Nat} {entries front back : List (Entry × Nat)}

/-- A trail through two lists of entries is a trail through the first and then one through the
second. -/
theorem split (trail : Trail data start (front ++ back) stop) :
    ∃ middle, Trail data start front middle ∧ Trail data middle back stop := by
  induction front generalizing start with
  | nil => exact ⟨start, .here start, trail⟩
  | cons entry later ih =>
    cases trail with
    | step found rest =>
      obtain ⟨middle, before, behind⟩ := ih rest
      exact ⟨middle, .step found before, behind⟩

/-- The ends of entries are multiples of a block. -/
theorem dvd_stop (trail : Trail data start entries stop) (whole : blockLength ∣ start) :
    blockLength ∣ stop := by
  induction trail with
  | here offset => exact whole
  | step entry rest ih => exact ih (Nat.dvd_add whole (blockLength_dvd_entryLength _))

/-- A trail goes past the bytes by less than the padded contents of one entry. -/
theorem stop_le (trail : Trail data start entries stop)
    (inside : start ≤ data.length + 2 ^ 36) : stop ≤ data.length + 2 ^ 36 := by
  induction trail with
  | here offset => exact inside
  | @step offset stop found later entry rest ih =>
    obtain ⟨within, -, decoded⟩ := findingAt_eq_entry_iff.mp entry
    have bound : entryLength found.size ≤ blockLength + 2 ^ 36 :=
      entryLength_le (Header.size_lt_of_decode decoded)
    exact ih (by omega)

end Trail

/-! ## Calls for the next entry -/

namespace Scanner

/-- The scan after a number of calls for the next entry. -/
def after (scanner : Scanner) : Nat → Scanner
  | 0 => scanner
  | calls + 1 => scanner.next.2.after calls

/-- What a call for the next entry finds after a number of others. -/
def found (scanner : Scanner) (calls : Nat) : Finding := (scanner.after calls).next.1

/-- After two numbers of calls it is after their sum. -/
theorem after_add (scanner : Scanner) (first second : Nat) :
    scanner.after (first + second) = (scanner.after first).after second := by
  induction first generalizing scanner with
  | zero => rw [Nat.zero_add, after]
  | succ first ih =>
    rw [Nat.succ_add, after, after]
    exact ih scanner.next.2

/-- A scan that has ended finds nothing more. -/
theorem after_of_done {scanner : Scanner} (done : scanner.done = true) (calls : Nat) :
    scanner.after calls = scanner := by
  have stays : scanner.next = (.finished none, scanner) := if_pos done
  induction calls with
  | zero => rfl
  | succ calls ih => rw [after, stays, ih]

/-- A call for each entry of a trail leads along it. -/
theorem after_of_trail {data : List UInt8} {start stop : Nat} {entries : List (Entry × Nat)}
    (trail : Trail data start entries stop) {source : Source} (reliable : source.Reliable)
    (same : source.data = data) :
    ∃ left, after ⟨source, start, false⟩ entries.length = ⟨left, stop, false⟩ ∧
      left.Reliable ∧ left.data = data := by
  induction trail generalizing source with
  | here offset => exact ⟨source, rfl, reliable, same⟩
  | @step offset stop entry later found rest ih =>
    obtain ⟨between, stepped, still, kept⟩ := next_of_reliable reliable offset
    rw [same, found] at stepped
    obtain ⟨left, led, further, unchanged⟩ := ih still (kept.trans same)
    refine ⟨left, ?_, further, unchanged⟩
    rw [List.length_cons, after, stepped]
    exact led

/-- A call behind a trail finds what is there, and ends the scan unless that is an entry. -/
theorem next_of_trail {data : List UInt8} {start stop : Nat} {entries : List (Entry × Nat)}
    (trail : Trail data start entries stop) {source : Source} (reliable : source.Reliable)
    (same : source.data = data) :
    let scanner : Scanner := ⟨source, start, false⟩
    (scanner.after entries.length).offset = stop ∧
      scanner.found entries.length = findingAt data stop ∧
      ((∀ entry, findingAt data stop ≠ .entry entry) →
        (scanner.after (entries.length + 1)).offset = stop ∧
          (scanner.after (entries.length + 1)).done = true) := by
  intro scanner
  obtain ⟨left, led, still, kept⟩ := after_of_trail trail reliable same
  obtain ⟨last, stepped, -, -⟩ := next_of_reliable still stop
  rw [kept] at stepped
  have behind : scanner.after entries.length = ⟨left, stop, false⟩ := led
  rw [found, after_add, behind, after, after, stepped]
  cases findingAt data stop with
  | entry entry => exact ⟨rfl, rfl, fun none => absurd rfl (none entry)⟩
  | finished warning => exact ⟨rfl, rfl, fun _ => ⟨rfl, rfl⟩⟩
  | failed error => exact ⟨rfl, rfl, fun _ => ⟨rfl, rfl⟩⟩

end Scanner

/-- Where the entry at a position starts, if every entry starts where the one before it ends. -/
def placeOf (entries : List Entry) (position : Nat) : Nat :=
  ((entries.take position).map fun entry => entryLength entry.size).sum

/-- A trail from the start leads to the place of each entry, and goes on from there. -/
theorem Trail.through {data : List UInt8} {stop : Nat} {entries : List (Entry × Nat)}
    (trail : Trail data 0 entries stop) (position : Nat) :
    Trail data 0 (entries.take position) (placeOf (entries.map (·.1)) position) ∧
      Trail data (placeOf (entries.map (·.1)) position) (entries.drop position) stop := by
  have parts := List.take_append_drop position entries
  rw [← parts] at trail
  obtain ⟨middle, before, behind⟩ := trail.split
  have place : middle = placeOf (entries.map (·.1)) position := by
    rw [before.stop_eq, Nat.zero_add, placeOf, ← List.map_take, List.map_map]
    rfl
  exact ⟨place ▸ before, place ▸ behind⟩

/-- The entry at a position of a trail from the start is found at its place. -/
theorem Trail.findingAt_placeOf {data : List UInt8} {stop : Nat} {entries : List (Entry × Nat)}
    (trail : Trail data 0 entries stop) {position : Nat} (inside : position < entries.length) :
    findingAt data (placeOf (entries.map (·.1)) position) = .entry entries[position].1 := by
  have behind := (trail.through position).2
  rw [List.drop_eq_getElem_cons inside] at behind
  generalize entries[position] = entry at behind ⊢
  cases behind with
  | step found rest => exact found

section Calls

variable {source : Source} (reliable : source.Reliable)

include reliable

/-- A scan of a reliable source follows the trail of its bytes to the first place without an entry,
and ends as that place tells. -/
theorem trail_of_reliable :
    let found := scan source
    Trail source.data 0 found.entries found.scanner.offset ∧
      found.ending = findingAt source.data found.scanner.offset ∧
      ∀ entry, findingAt source.data found.scanner.offset ≠ .entry entry := by
  intro found
  obtain ⟨trail, last⟩ := trail_scan source.data
  obtain ⟨position, plain⟩ := scan_of_trail trail last
  obtain ⟨after, scanned, -, -⟩ := scan_of_reliable reliable
  have ending := congrArg Scan.ending plain
  have same : found = { scan (.ofBytes source.data) with
      scanner := { (scan (.ofBytes source.data)).scanner with source := after } } := scanned
  rw [same]
  exact ⟨trail, ending, last⟩

/-- A call for the next entry that comes after calls for some of the entries looks at the place of
the next. -/
theorem found_of_le {calls : Nat} (within : calls ≤ (scan source).entries.length) :
    let place := placeOf ((scan source).entries.map (·.1)) calls
    ((Scanner.start source).after calls).offset = place ∧
      (Scanner.start source).found calls = findingAt source.data place := by
  intro place
  have before := ((trail_of_reliable reliable).1.through calls).1
  have count := List.length_take_of_le within
  obtain ⟨offset, found, -⟩ := Scanner.next_of_trail before reliable rfl
  rw [count] at offset found
  exact ⟨offset, found⟩

/-- A call that comes after the end stays there and finds nothing. -/
theorem found_of_lt {calls : Nat} (beyond : (scan source).entries.length < calls) :
    ((Scanner.start source).after calls).offset = (scan source).scanner.offset ∧
      (Scanner.start source).found calls = .finished none := by
  obtain ⟨trail, -, last⟩ := trail_of_reliable reliable
  obtain ⟨-, -, ended⟩ := Scanner.next_of_trail trail reliable rfl
  obtain ⟨offset, done⟩ := ended last
  obtain ⟨more, rfl⟩ := Nat.exists_eq_add_of_lt beyond
  have stays : (Scanner.start source).after ((scan source).entries.length + more + 1) =
      (Scanner.start source).after ((scan source).entries.length + 1) := by
    rw [Nat.add_right_comm, Scanner.after_add]
    exact Scanner.after_of_done done more
  rw [Scanner.found, stays]
  exact ⟨offset, congrArg Prod.fst (if_pos done)⟩

end Calls

/-- A scan of any bytes, call by call. It finds no more entries than there are blocks; each where
the one before it ends, with its header inside the bytes, its path and its size what that decodes
to, and its size below `2 ^ 36`; and after each number of calls it has come to the end of the
entries found, a multiple of a block that is less than `2 ^ 36` past the last header. It stops only
where there is no header, perhaps with a fault: one of the block there, which is a missing mark only
at the start. From then on nothing is found. -/
theorem scan_of_any_bytes {source : Source} (reliable : source.Reliable) :
    let data := source.data
    let scanner := Scanner.start source
    let entries := (scan source).entries.map (·.1)
    let stop := placeOf entries entries.length
    entries.length ≤ data.length / blockLength ∧
      (∀ calls (inside : calls < entries.length),
        let place := placeOf entries calls
        scanner.found calls = .entry entries[calls] ∧
          place + blockLength ≤ data.length ∧ entries[calls].offset = place + blockLength ∧
          Header.decode ((data.drop place).take blockLength) place =
            .ok (some ⟨entries[calls].path, entries[calls].size⟩) ∧
          entries[calls].size < 2 ^ 36) ∧
      (∀ calls, (scanner.after calls).offset = placeOf entries calls ∧
        blockLength ∣ placeOf entries calls ∧ placeOf entries calls ≤ data.length + 2 ^ 36 ∧
        (data.length < 2 ^ 63 → placeOf entries calls < 2 ^ 64)) ∧
      (stop + blockLength ≤ data.length → ∀ header,
        Header.decode ((data.drop stop).take blockLength) stop ≠ .ok (some header)) ∧
      (scan source).scanner.offset = stop ∧ scanner.found entries.length = (scan source).ending ∧
      ((∃ warning, (scan source).ending = .finished warning) ∨
        ∃ fault, (scan source).ending = .failed (.header fault) ∧ fault.offset = stop ∧
          (fault.IsMagic → stop = 0)) ∧
      ∀ calls, entries.length < calls → scanner.found calls = .finished none := by
  intro data scanner entries stop
  obtain ⟨trail, ended, last⟩ := trail_of_reliable reliable
  have count : entries.length = (scan source).entries.length := List.length_map _
  have stopped : (scan source).scanner.offset = stop := by
    have whole := (trail.through entries.length).1
    rw [count, List.take_length] at whole
    rw [trail.stop_eq, ← whole.stop_eq, ← count]
  rw [stopped] at ended last
  have beyond {calls : Nat} (more : entries.length < calls) : placeOf entries calls = stop := by
    show placeOf entries calls = placeOf entries entries.length
    rw [placeOf, placeOf, List.take_length, List.take_of_length_le (Nat.le_of_lt more)]
  refine ⟨count ▸ trail.count_le, fun calls inside => ?_, fun calls => ?_, fun whole header => ?_,
    stopped, ?_, ?_, fun calls more => (found_of_lt reliable (count ▸ more)).2⟩
  · intro place
    have among : calls < (scan source).entries.length := count ▸ inside
    have entry : findingAt data place = .entry entries[calls] := by
      rw [List.getElem_map]
      exact trail.findingAt_placeOf among
    obtain ⟨within, offset, decoded⟩ := findingAt_eq_entry_iff.mp entry
    have found := (found_of_le reliable (Nat.le_of_lt among)).2
    exact ⟨found.trans entry, within, offset, decoded, Header.size_lt_of_decode decoded⟩
  · have before := (trail.through calls).1
    have bound := before.stop_le (Nat.zero_le _)
    refine ⟨?_, before.dvd_stop (Nat.dvd_zero _), bound, fun short => ?_⟩
    · rcases Nat.lt_or_ge entries.length calls with more | within
      · rw [(found_of_lt reliable (count ▸ more)).1, stopped, beyond more]
      · exact (found_of_le reliable (count ▸ within)).1
    · show placeOf entries calls < 2 ^ 64
      have small : placeOf entries calls ≤ data.length + 2 ^ 36 := bound
      omega
  · intro decoded
    obtain ⟨path, size⟩ := header
    exact last ⟨path, stop + blockLength, size⟩
      (findingAt_eq_entry_iff.mpr ⟨whole, rfl, decoded⟩)
  · have found := (found_of_le reliable (Nat.le_of_eq count)).2
    exact found.trans ended.symm
  · cases finding : findingAt data stop with
    | entry entry => exact absurd finding (last entry)
    | finished warning => exact .inl ⟨warning, ended.trans finding⟩
    | failed error =>
      obtain ⟨fault, rfl, offset, magic⟩ := fault_of_findingAt finding
      exact .inr ⟨fault, ended.trans finding, offset, magic⟩

/-- An entry with a damaged header behind it, from a source that is interrupted and gives one byte,
then seven at most: the entry is found, then a wrong checksum where it ends, and nothing more. -/
theorem scan_of_any_bytes_damaged :
    let data := (Item.mk "a" [1, 2, 3] 0).bytes ++ (Item.mk "b" [4] 0).bytes.set 0 122
    let source : Source := ⟨data, 0, [.interrupted, .upTo 1], some 7, none⟩
    let scanner := Scanner.start source
    source.Reliable ∧ (scan source).entries = [(⟨"a", 512, 3⟩, 1024)] ∧
      scanner.found 0 = .entry ⟨"a", 512, 3⟩ ∧ (scanner.after 1).offset = 1024 ∧
      scanner.found 1 = .failed (.header (.checksum 1024 3136 3160)) ∧
      ∀ calls, 1 < calls → scanner.found calls = .finished none := by
  intro data source scanner
  have reliable : source.Reliable := by
    refine ⟨?_, by simp [source], rfl⟩
    intro reply member
    simp only [source, List.mem_cons, List.not_mem_nil, or_false] at member
    rcases member with rfl | rfl
    · trivial
    · exact Nat.one_pos
  have first : findingAt data 0 = .entry ⟨"a", 512, 3⟩ := by decide +kernel
  have second : findingAt data 1024 = .failed (.header (.checksum 1024 3136 3160)) := by
    decide +kernel
  have trail : Trail data 0 [(⟨"a", 512, 3⟩, 1024)] 1024 := .step first (.here 1024)
  obtain ⟨position, plain⟩ := scan_of_trail trail (by simp [second])
  obtain ⟨after, scanned, -, -⟩ := scan_of_reliable reliable
  have same : source.data = data := rfl
  rw [same, plain, second] at scanned
  have entries : (scan source).entries.map (·.1) = [⟨"a", 512, 3⟩] := by rw [scanned]; rfl
  obtain ⟨-, found, places, -, -, ended, -, beyond⟩ := scan_of_any_bytes reliable
  simp only [entries] at found places ended beyond
  refine ⟨reliable, by rw [scanned], (found 0 Nat.one_pos).1, (places 1).1, ?_, beyond⟩
  exact ended.trans (by rw [scanned])

end Trajectory.Tar
