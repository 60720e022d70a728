import SavanXP.Library.Bytes

/-!
# Icons in a resource

A blob is accepted after its header and every entry have been checked; from then
on its pixels are reached through the entries without a check.  The check of an
entry multiplies in 32 bits what a reader multiplies in full.
-/

namespace SavanXP.Sxe

open SavanXP.Library List

/-- The last two are no results of the source: they mark an access outside of a buffer, and a
loop that does not end. -/
inductive Result where
  | absent | badMagic | badVersion | truncated | tooLarge | malformed | requiredUnknown
  | outside | endless
  deriving DecidableEq

abbrev Reader := Except Result

def require (condition : Bool) (otherwise : Result) : Reader Unit :=
  if condition then .ok () else .error otherwise

def load (blob : List UInt8) (width offset : Nat) : Reader Nat :=
  if offset + width ≤ blob.length then
    .ok (Codec.leValue fun i : Fin width => blob.getD (offset + i.val) 0)
  else .error .outside

structure Header where
  version : Nat
  headerBytes : Nat
  blobBytes : Nat
  count : Nat

/-- The checks that both formats make first. -/
def openHeader (magic : List UInt8) (maxBytes a : Nat) (blob : List UInt8) : Reader Header := do
  require (blob ≠ []) .absent
  require (a % 4 = 0) .malformed
  require (16 ≤ blob.length) .truncated
  require (blob.take 4 = magic) .badMagic
  let version ← load blob 2 4
  require (version ≠ 0 ∧ version ≤ 1) .badVersion
  let headerBytes ← load blob 2 6
  require (16 ≤ headerBytes ∧ headerBytes % 4 = 0) .malformed
  let blobBytes ← load blob 4 8
  require (blobBytes ≤ maxBytes) .tooLarge
  require (blobBytes ≤ blob.length) .truncated
  require (headerBytes ≤ blobBytes) .malformed
  let count ← load blob 4 12
  return { version, headerBytes, blobBytes, count }

structure IconEntry where
  width : Nat
  height : Nat
  format : Nat
  offset : Nat
  length : Nat

/-- The entries start at `entries` bytes into the blob. -/
structure Icons where
  entries : Nat
  blobBytes : Nat
  imageCount : Nat
  version : Nat

def iconEntry (blob : List UInt8) (entries i : Nat) : Reader IconEntry := do
  let offset := entries + i * 16
  return { width := ← load blob 2 offset, height := ← load blob 2 (offset + 2)
           format := ← load blob 4 (offset + 4), offset := ← load blob 4 (offset + 8)
           length := ← load blob 4 (offset + 12) }

/-- The expected length is a product of 32-bit numbers. -/
def checkEntry (blobBytes entriesEnd : Nat) (e : IconEntry) : Reader Unit := do
  require (e.format = 2) .malformed
  require (e.width ≠ 0 ∧ e.height ≠ 0) .malformed
  require (e.length = e.width * e.height * 4 % 2 ^ 32) .malformed
  require (e.offset % 4 = 0) .malformed
  require (entriesEnd ≤ e.offset) .malformed
  require (e.offset ≤ blobBytes ∧ e.length ≤ blobBytes - e.offset) .truncated

def checkEntries (blob : List UInt8) (entries blobBytes entriesEnd : Nat) : List Nat → Reader Unit
  | [] => .ok ()
  | i :: rest => do
    checkEntry blobBytes entriesEnd (← iconEntry blob entries i)
    checkEntries blob entries blobBytes entriesEnd rest

def sxeIconsOpen (a : Nat) (blob : List UInt8) : Reader Icons := do
  let hdr ← openHeader [83, 88, 73, 67] 65536 a blob
  require (hdr.count ≤ 16) .malformed
  let entriesBytes := hdr.count * 16
  require (entriesBytes ≤ hdr.blobBytes - hdr.headerBytes) .truncated
  checkEntries blob hdr.headerBytes hdr.blobBytes (hdr.headerBytes + entriesBytes)
    (range hdr.count)
  return { entries := hdr.headerBytes, blobBytes := hdr.blobBytes, imageCount := hdr.count
           version := hdr.version }

def iconWidth (blob : List UInt8) (icons : Icons) (i : Nat) : Reader Nat :=
  load blob 2 (icons.entries + i * 16)

/-- A candidate replaces the entry that is remembered if there is none or the sizes compare so. -/
def remember (blob : List UInt8) (icons : Icons) (size i : Nat) (candidate : Bool)
    (compare : Nat → Nat → Bool) (remembered : Option Nat) : Reader (Option Nat) :=
  if candidate then
    match remembered with
    | none => .ok (some i)
    | some o => do
      return some (if compare size (← iconWidth blob icons o) then i else o)
  else .ok remembered

def bestLoop (blob : List UInt8) (icons : Icons) (wantedSize : Nat) :
    List Nat → Option Nat → Option Nat → Reader (Option Nat)
  | [], smallestFit, largest => .ok (smallestFit.or largest)
  | i :: rest, smallestFit, largest => do
    let size ← iconWidth blob icons i
    if size = wantedSize then return some i
    let smallestFit ←
      remember blob icons size i (wantedSize < size) (fun size o => size < o) smallestFit
    let largest ← remember blob icons size i true (fun size o => o < size) largest
    bestLoop blob icons wantedSize rest smallestFit largest

/-- The index of the entry. -/
def sxeIconsBest (blob : List UInt8) (icons : Icons) (wantedSize : Nat) : Reader (Option Nat) :=
  bestLoop blob icons wantedSize (range icons.imageCount) none none

/-- Where in the blob the pixels start. -/
def sxeIconsPixels (e : IconEntry) : Nat := e.offset

section

variable {α β : Type} {first : Reader α} {next : α → Reader β} {blob : List UInt8}

theorem bind_ok {result : β} :
    first >>= next = .ok result ↔ ∃ v, first = .ok v ∧ next v = .ok result := by
  cases first <;> simp [bind, Except.bind]

theorem require_ok {condition : Bool} {otherwise : Result} {done : Unit} :
    require condition otherwise = .ok done ↔ condition = true := by
  cases condition <;> simp [require]

theorem load_inside {width offset : Nat} (inside : offset + width ≤ blob.length) :
    ∃ v, load blob width offset = .ok v :=
  ⟨_, if_pos inside⟩

theorem openHeader_ok {magic : List UInt8} {maxBytes a : Nat} {hdr : Header}
    (opened : openHeader magic maxBytes a blob = .ok hdr) :
    (16 ≤ hdr.headerBytes ∧ hdr.headerBytes % 4 = 0) ∧ hdr.blobBytes ≤ maxBytes ∧
      hdr.blobBytes ≤ blob.length ∧ hdr.headerBytes ≤ hdr.blobBytes := by
  simp only [openHeader, bind_ok, require_ok, decide_eq_true_eq] at opened
  obtain ⟨_, _, _, _, _, _, _, _, _, _, _, _, headerBytes, _, _, aligned, blobBytes, _, _, small, _,
    inside, _, ordered, count, _, made⟩ := opened
  cases made
  exact ⟨aligned, small, inside, ordered⟩

theorem checkEntries_ok {entries blobBytes entriesEnd : Nat} {listed : List Nat}
    (checked : checkEntries blob entries blobBytes entriesEnd listed = .ok ()) :
    ∀ i ∈ listed, ∃ e, iconEntry blob entries i = .ok e ∧
      checkEntry blobBytes entriesEnd e = .ok () := by
  induction listed with
  | nil => nofun
  | cons i rest ih =>
    obtain ⟨e, read, passed⟩ := bind_ok.mp checked
    obtain ⟨_, good, t⟩ := bind_ok.mp passed
    exact forall_mem_cons.mpr ⟨⟨e, read, good⟩, ih t⟩

/-- The length of an accepted entry is the product in 32 bits, and it fits. -/
theorem checkEntry_ok {blobBytes entriesEnd : Nat} {e : IconEntry}
    (checked : checkEntry blobBytes entriesEnd e = .ok ()) :
    e.offset + e.width * e.height * 4 % 2 ^ 32 ≤ blobBytes := by
  simp only [checkEntry, bind_ok, require_ok, decide_eq_true_eq] at checked
  obtain ⟨_, _, _, _, _, length, _, _, _, _, fits⟩ := checked
  omega

theorem remember_ok {icons : Icons} {holds : Nat → Prop}
    (readable : ∀ i, holds i → ∃ size, iconWidth blob icons i = .ok size) (size : Nat) {i : Nat}
    (new : holds i) (candidate : Bool) (compare : Nat → Nat → Bool) {remembered : Option Nat}
    (old : ∀ o ∈ remembered, holds o) :
    ∃ next, remember blob icons size i candidate compare remembered = .ok next ∧
      (∀ o ∈ next, holds o) ∧ (candidate = true → next ≠ none) := by
  unfold remember
  split
  · cases remembered with
    | none => exact ⟨some i, rfl, fun o same => Option.some.inj same ▸ new, fun _ => nofun⟩
    | some o =>
      obtain ⟨width, read⟩ := readable o (old o rfl)
      refine ⟨some (if compare size width then i else o), by simp only [read]; rfl, ?_,
        fun _ => nofun⟩
      intro chosen same
      rw [← Option.some.inj same]
      split
      · exact new
      · exact old o rfl
  · next o => exact ⟨remembered, rfl, old, fun candidate => absurd candidate o⟩

/-- The loop chooses among the entries it has seen and those to come. -/
theorem bestLoop_ok {icons : Icons} {wantedSize : Nat} {holds : Nat → Prop}
    (readable : ∀ i, holds i → ∃ size, iconWidth blob icons i = .ok size) {listed : List Nat}
    (each : ∀ i ∈ listed, holds i) {smallestFit largest : Option Nat}
    (fit : ∀ i ∈ smallestFit, holds i) (large : ∀ i ∈ largest, holds i) :
    ∃ chosen, bestLoop blob icons wantedSize listed smallestFit largest = .ok chosen ∧
      (∀ i ∈ chosen, holds i) ∧ (listed ≠ [] ∨ largest ≠ none → chosen ≠ none) := by
  induction listed generalizing smallestFit largest with
  | nil =>
    refine ⟨_, rfl, fun i chosen => ?_, fun some => ?_⟩
    · exact (Option.or_eq_some_iff.mp chosen).elim (fit i) fun second => large i second.2
    · rw [ne_eq, Option.or_eq_none_iff]
      exact fun none => some.elim (absurd rfl) (absurd none.2)
  | cons i rest ih =>
    obtain ⟨here, each⟩ := forall_mem_cons.mp each
    obtain ⟨size, read⟩ := readable i here
    unfold bestLoop
    rw [read]
    simp only [bind, Except.bind]
    split
    · exact ⟨some i, rfl, fun o same => Option.some.inj same ▸ here, fun _ => nofun⟩
    obtain ⟨next, asked, fit, _⟩ :=
      remember_ok readable size here (wantedSize < size) (fun size o => size < o) fit
    obtain ⟨bigger, compared, large, kept⟩ :=
      remember_ok readable size here true (fun size o => o < size) large
    simp only [asked, compared]
    obtain ⟨chosen, done, among, found⟩ := ih each fit large
    exact ⟨chosen, done, among, fun _ => found (.inr (kept rfl))⟩

end

/-- The bytes that painting the icon with its dimensions reads. -/
def IconEntry.painted (e : IconEntry) : Nat := e.width * e.height * 4

/-- An accepted entry's pixels end inside the blob when their exact number fits 32 bits, and in a
blob below 4 GiB only then. -/
theorem checkEntry_inside {blobBytes entriesEnd length : Nat} {e : IconEntry}
    (checked : checkEntry blobBytes entriesEnd e = .ok ()) (inside : blobBytes ≤ length) :
    (e.painted < 2 ^ 32 → sxeIconsPixels e + e.painted ≤ length) ∧
      (length < 2 ^ 32 → sxeIconsPixels e + e.painted ≤ length → e.painted < 2 ^ 32) := by
  have ends := checkEntry_ok checked
  unfold IconEntry.painted sxeIconsPixels
  constructor
  · intro small
    rw [Nat.mod_eq_of_lt small] at ends
    exact ends.trans inside
  · intro short reached
    omega

/-- The pixels of an accepted entry lie inside the blob exactly when the product of its dimensions
does not wrap (a blob of 4 GiB or more can also hold a product that does); and the entry chosen
for a size is one of the accepted ones. -/
theorem icon_pixels_inside (address : Nat) (blob : List UInt8) (icons : Icons)
    (opened : sxeIconsOpen address blob = .ok icons) (wantedSize : Nat) :
    (∀ i < icons.imageCount, ∃ entry, iconEntry blob icons.entries i = .ok entry ∧
      (entry.painted < 2 ^ 32 → sxeIconsPixels entry + entry.painted ≤ blob.length) ∧
      (blob.length < 2 ^ 32 → sxeIconsPixels entry + entry.painted ≤ blob.length →
        entry.painted < 2 ^ 32)) ∧
    ∃ chosen, sxeIconsBest blob icons wantedSize = .ok chosen ∧
      (∀ i ∈ chosen, i < icons.imageCount) ∧ (icons.imageCount ≠ 0 → chosen ≠ none) := by
  simp only [sxeIconsOpen, bind_ok, require_ok, decide_eq_true_eq] at opened
  obtain ⟨header, read, _, _, _, fits, _, checked, made⟩ := opened
  obtain ⟨_, _, inside, ordered⟩ := openHeader_ok read
  cases made
  dsimp only at *
  refine ⟨fun i listed => ?_, ?_⟩
  · obtain ⟨entry, loaded, passed⟩ := checkEntries_ok checked i (mem_range.mpr listed)
    exact ⟨entry, loaded, checkEntry_inside passed inside⟩
  · have readable (i : Nat) (listed : i < header.count) :
        ∃ size, iconWidth blob ⟨header.headerBytes, header.blobBytes, header.count,
          header.version⟩ i =
          .ok size := load_inside (by dsimp only; omega)
    obtain ⟨chosen, done, among, found⟩ :=
      @bestLoop_ok blob _ wantedSize _ readable _ (fun i => mem_range.mp) none none nofun nofun
    exact ⟨chosen, done, among, fun some => found (.inl (by simpa using some))⟩

/-- A blob with one icon. -/
def oneIcon (dimensions length pixels : List UInt8) : List UInt8 :=
  [83, 88, 73, 67, 1, 0, 16, 0, 32 + UInt8.ofNat pixels.length, 0, 0, 0, 1, 0, 0, 0] ++
    dimensions ++
    [2, 0, 0, 0, 32, 0, 0, 0] ++ length ++ pixels

theorem icon_pixels_inside_single :
    ∃ entry, iconEntry (oneIcon [1, 0, 1, 0] [4, 0, 0, 0] [0, 0, 0, 255]) 16 0 = .ok entry ∧
      entry.painted = 4 ∧ sxeIconsPixels entry + entry.painted ≤ 36 := by
  obtain ⟨entry, loaded, inside, _⟩ :=
    (icon_pixels_inside 0 (oneIcon [1, 0, 1, 0] [4, 0, 0, 0] [0, 0, 0, 255])
      ⟨16, 36, 1, 1⟩ rfl 16).1
      0 (by decide)
  have painted : entry.painted = 4 := by
    cases loaded
    rfl
  exact ⟨entry, loaded, painted, inside (by omega)⟩

/-- An icon of 32768 by 32768 pixels passes with no pixels at all. -/
theorem icon_without_pixels_accepted :
    ∃ icons entry, sxeIconsOpen 0 (oneIcon [0, 128, 0, 128] [0, 0, 0, 0] []) = .ok icons ∧
      0 < icons.imageCount ∧
      iconEntry (oneIcon [0, 128, 0, 128] [0, 0, 0, 0] []) icons.entries 0 = .ok entry ∧
      (oneIcon [0, 128, 0, 128] [0, 0, 0, 0] []).length < sxeIconsPixels entry + entry.painted :=
  ⟨⟨16, 32, 1, 1⟩, ⟨32768, 32768, 2, 32, 0⟩, rfl, by decide, rfl, by decide⟩

end SavanXP.Sxe
