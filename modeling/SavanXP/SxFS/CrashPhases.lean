import SavanXP.SxFS.JournalSpec

/-!
# What the medium can hold during a commit

A commit moves the device through phases.  A phase bounds, sector by sector,
what the medium can hold if the power goes now: the journal header, the home
metadata and the journal slots.  In every phase any medium a cut leaves is
recovered to the old metadata or to the new one.
-/

namespace SavanXP.SxFS

open SavanXP.Library

/-- A header sector that recovery replays. -/
def armed (sector : Sector) : Bool :=
  let header := JournalHeader.codec.symm sector
  journalValid header && header.pending ≠ 0

theorem not_armed (sector : Sector) :
    (!armed sector) = (!journalValid (JournalHeader.codec.symm sector) ||
      decide ((JournalHeader.codec.symm sector).pending = 0)) := by
  simp only [armed, Bool.not_and, ne_eq, decide_not, Bool.not_not]

/-- Recovery takes sector `i` from its journal slot. -/
def replays (header : Sector) (i : Nat) : Bool :=
  armed header && Bits.test (JournalHeader.codec.symm header).replayMap i

def slotLba (i : Nat) : Nat := journalLba + 1 + i

def homeLba (i : Nat) : Nat := blockBitmapLba + i

/-- The metadata sectors recovery makes of a medium. -/
def recovered (med : Nat → Sector) (i : Nat) : Sector :=
  if replays (med journalLba) i then med (slotLba i) else med (homeLba i)

/-- The sector `clearJournal` writes. -/
def clearedHeader : Sector := JournalHeader.codec JournalHeader.zero

theorem armed_clearedHeader : armed clearedHeader = false := by
  decide

theorem journalHeaderFor_valid (map : Bytes 196) (seq : UInt32) :
    journalValid (journalHeaderFor map seq) = true := by
  have stamped : (journalHeaderFor map seq).checksum =
      journalChecksum (journalHeaderFor map seq) :=
    (journalChecksum_withChecksum _ _).symm
  simp only [journalValid, Bool.and_eq_true, decide_eq_true_eq]
  exact ⟨⟨⟨rfl, stamped⟩, rfl⟩, rfl⟩

/-- The header a commit writes is armed with the commit's map. -/
theorem replays_journalHeaderFor (map : Bytes 196) (seq : UInt32) (i : Nat) :
    armed (JournalHeader.codec (journalHeaderFor map seq)) = true ∧
      replays (JournalHeader.codec (journalHeaderFor map seq)) i = Bits.test map i := by
  have isArmed : armed (JournalHeader.codec (journalHeaderFor map seq)) = true := by
    simp only [armed, Equiv.symm_apply_apply, journalHeaderFor_valid]
    rfl
  refine ⟨isArmed, ?_⟩
  simp only [replays, isArmed, Bool.true_and, Equiv.symm_apply_apply]
  rfl

/-! ## Places -/

theorem slotLba_ne_journalLba (i : Nat) : slotLba i ≠ journalLba := by
  simp only [slotLba]
  omega

theorem homeLba_ne_journalLba (i : Nat) : homeLba i ≠ journalLba := by
  simp only [homeLba, blockBitmapLba, journalSectors]
  omega

variable {i : Nat}

theorem slotLba_ne_homeLba (ins : i < journalMetadataSectors) (other : Nat) :
    slotLba i ≠ homeLba other := by
  simp only [slotLba, homeLba, blockBitmapLba, journalSectors]
  omega

theorem slotLba_inj {other : Nat} (same : slotLba i = slotLba other) : i = other := by
  simp only [slotLba] at same
  omega

theorem homeLba_inj {other : Nat} (same : homeLba i = homeLba other) : i = other := by
  simp only [homeLba] at same
  omega

/-- The places of the two superblocks. -/
def isCopy (a : Nat) : Prop := a = primarySbLba ∨ a = secondarySbLba

variable {a : Nat}

theorem isCopy.lt (copy : isCopy a) : a < journalLba := by
  rcases copy with rfl | rfl <;> decide

theorem isCopy.ne_slotLba (copy : isCopy a) (i : Nat) : a ≠ slotLba i := by
  have := copy.lt
  simp only [slotLba]
  omega

theorem isCopy.ne_homeLba (copy : isCopy a) (i : Nat) : a ≠ homeLba i := by
  have := copy.lt
  simp only [homeLba, blockBitmapLba]
  omega

/-! ## Superblock copies -/

def copyValid (sector : Sector) : Bool := superblockValid (Superblock.codec.symm sector)

/-- Whatever a cut leaves of the two superblocks, one of them is valid and the
valid ones describe a volume of `total` sectors that fits the device. -/
structure Copies (total : UInt32) (disk : Disk Sector) : Prop where
  agree : ∀ a, isCopy a → ∀ v, disk.possible a v →
    copyValid v = true → (Superblock.codec.symm v).totalSectors = total
  valid : ∃ a, isCopy a ∧ ∀ v, disk.possible a v → copyValid v = true
  room : total.toNat ≤ disk.sectorCount

variable {fresh : Nat → Sector → Prop}

theorem Copies.touches {total : UInt32} {disk t : Disk Sector}
    (copies : Copies total disk) (touches : disk.Touches fresh t)
    (good : ∀ a, isCopy a → ∀ v, fresh a v →
      copyValid v = true ∧ (Superblock.codec.symm v).totalSectors = total) : Copies total t := by
  refine ⟨fun a copy => ?_, ?_, ?_⟩
  · exact touches.only (copies.agree a copy) (fun v new _ => (good a copy v new).2)
  · obtain ⟨a, copy, valid⟩ := copies.valid
    exact ⟨a, copy, touches.only valid (fun v new => (good a copy v new).1)⟩
  · rw [touches.sectorCount]
    exact copies.room

/-! ## Phases -/

/-- Bounds on what the medium can hold. -/
structure Phase (total : UInt32) (header : Sector → Prop) (home slot : Nat → Sector → Prop)
    (disk : Disk Sector) : Prop where
  header : ∀ v, disk.possible journalLba v → header v
  home : ∀ i, i < journalMetadataSectors →
    ∀ v, disk.possible (homeLba i) v → home i v
  slot : ∀ i, i < journalMetadataSectors →
    ∀ v, disk.possible (slotLba i) v → slot i v
  copies : Copies total disk

section Phases

variable {total : UInt32} {header weakHeader : Sector → Prop}
  {home weakHome slot weakSlot : Nat → Sector → Prop} {disk t : Disk Sector}

section

variable (phase : Phase total header home slot disk)
include phase

theorem Phase.weaken (onHeader : ∀ v, header v → weakHeader v)
    (onHome : ∀ i < journalMetadataSectors, ∀ v, home i v → weakHome i v)
    (onSlot : ∀ i < journalMetadataSectors, ∀ v, slot i v → weakSlot i v) :
    Phase total weakHeader weakHome weakSlot disk :=
  ⟨fun v held => onHeader v (phase.header v held),
    fun i ins v held => onHome i ins v (phase.home i ins v held),
    fun i ins v held => onSlot i ins v (phase.slot i ins v held),
    phase.copies⟩

theorem Phase.touches (touches : disk.Touches fresh t)
    (onHeader : ∀ v, fresh journalLba v → header v)
    (onHome : ∀ i < journalMetadataSectors, ∀ v, fresh (homeLba i) v → home i v)
    (onSlot : ∀ i < journalMetadataSectors, ∀ v, fresh (slotLba i) v → slot i v)
    (onCopies : ∀ a, isCopy a → ∀ v, fresh a v →
      copyValid v = true ∧ (Superblock.codec.symm v).totalSectors = total) :
    Phase total header home slot t :=
  ⟨touches.only phase.header onHeader, fun i ins => touches.only (phase.home i ins) (onHome i ins),
    fun i ins => touches.only (phase.slot i ins) (onSlot i ins),
    phase.copies.touches touches onCopies⟩

theorem Phase.keeps (keeps : disk.Keeps t) : Phase total header home slot t :=
  phase.touches keeps nofun nofun nofun nofun

/-- Writes into journal slots. -/
theorem Phase.touchSlots {map : Bytes 196} {md : Metadata}
    (touches : disk.Touches (mappedWrite map md (journalLba + 1) journalMetadataSectors) t)
    (fresh : ∀ i < journalMetadataSectors, Bits.test map i = true →
      slot i (metadataSector md i)) : Phase total header home slot t := by
  refine phase.touches touches ?_ ?_ ?_ ?_
  · rintro v ⟨pos, ins, mapped, place, content⟩
    exact absurd place.symm (slotLba_ne_journalLba pos)
  · rintro i ins v ⟨pos, below, mapped, place, content⟩
    exact absurd place.symm (slotLba_ne_homeLba below i)
  · rintro i ins v ⟨pos, below, mapped, place, rfl⟩
    obtain rfl := slotLba_inj place
    exact fresh i ins mapped
  · rintro a copy v ⟨pos, below, mapped, place, content⟩
    exact absurd place (copy.ne_slotLba pos)

/-- Writes into home sectors. -/
theorem Phase.touchHome (touches : disk.Touches fresh t) (placed : ∀ a v, fresh a v →
      ∃ i, i < journalMetadataSectors ∧ a = homeLba i ∧ home i v) :
    Phase total header home slot t := by
  refine phase.touches touches ?_ ?_ ?_ ?_
  · intro v new
    obtain ⟨pos, below, place, good⟩ := placed _ _ new
    exact absurd place.symm (homeLba_ne_journalLba pos)
  · intro i ins v new
    obtain ⟨pos, below, place, good⟩ := placed _ _ new
    obtain rfl := homeLba_inj place
    exact good
  · intro i ins v new
    obtain ⟨pos, below, place, good⟩ := placed _ _ new
    exact absurd place (slotLba_ne_homeLba ins pos)
  · intro a copy v new
    obtain ⟨pos, below, place, good⟩ := placed _ _ new
    exact absurd place (copy.ne_homeLba pos)

/-- Writes of the header. -/
theorem Phase.touchHeader {v : Sector}
    (touches : disk.Touches (fun a data => (a, data) ∈ cells journalLba [v]) t)
    (fresh : header v) : Phase total header home slot t := by
  refine phase.touches touches ?_ ?_ ?_ ?_
  · intro data new
    exact (mem_cells_single.mp new).2 ▸ fresh
  · intro i ins data new
    exact absurd (mem_cells_single.mp new).1 (homeLba_ne_journalLba i)
  · intro i ins data new
    exact absurd (mem_cells_single.mp new).1 (slotLba_ne_journalLba i)
  · intro a copy data new
    exact absurd (mem_cells_single.mp new).1 (Nat.ne_of_lt copy.lt)

/-- Writes of superblocks. -/
theorem Phase.touchCopies (touches : disk.Touches fresh t)
    (placed : ∀ a v, fresh a v → isCopy a ∧ copyValid v = true ∧
      (Superblock.codec.symm v).totalSectors = total) : Phase total header home slot t := by
  refine phase.touches touches ?_ ?_ ?_ (fun a _ v new => (placed a v new).2)
  · intro v new
    exact absurd rfl (Nat.ne_of_lt (placed _ _ new).1.lt)
  · intro i ins v new
    exact absurd rfl ((placed _ _ new).1.ne_homeLba i)
  · intro i ins v new
    exact absurd rfl ((placed _ _ new).1.ne_slotLba i)

/-- At an ordering point the medium becomes what reads return. -/
theorem Phase.settled {landed : Disk Sector} (only : ∀ a v, landed.possible a v → v = disk.view a)
    (keeps : disk.Keeps landed) (onHeader : weakHeader (disk.view journalLba))
    (onHome : ∀ i < journalMetadataSectors, weakHome i (disk.view (homeLba i)))
    (onSlot : ∀ i < journalMetadataSectors, weakSlot i (disk.view (slotLba i))) :
    Phase total weakHeader weakHome weakSlot landed :=
  ⟨fun _ held => only _ _ held ▸ onHeader, fun i ins _ held => only _ _ held ▸ onHome i ins,
    fun i ins _ held => only _ _ held ▸ onSlot i ins, (phase.keeps keeps).copies⟩

theorem Phase.viewHeader : header (disk.view journalLba) := phase.header _ (disk.view_possible _)

theorem Phase.viewHome (ins : i < journalMetadataSectors) : home i (disk.view (homeLba i)) :=
  phase.home i ins _ (disk.view_possible _)

theorem Phase.viewSlot (ins : i < journalMetadataSectors) : slot i (disk.view (slotLba i)) :=
  phase.slot i ins _ (disk.view_possible _)

end

end Phases

/-! ## The phases of a commit -/

/-- Home holds `s` and no header is armed. -/
def Quiet (total : UInt32) (s : Nat → Sector) (disk : Disk Sector) : Prop :=
  Phase total (fun v => armed v = false) (fun i v => v = s i)
    (fun _ _ => True) disk

/-- A journal entry: an armed header, the sectors it replays and what the
metadata is once they have been. -/
structure Entry where
  header : Sector
  map : Bytes 196
  target : Nat → Sector
  isArmed : armed header = true
  covers : ∀ i, i < journalMetadataSectors → replays header i = Bits.test map i

/-- The slots of an entry hold what it replays. -/
def Entry.logged (e : Entry) (i : Nat) (v : Sector) : Prop :=
  Bits.test e.map i = true → v = e.target i

/-- The header may or may not be on the medium; home holds `s`. -/
def Entry.Arming (e : Entry) (total : UInt32) (s : Nat → Sector)
    (disk : Disk Sector) : Prop :=
  Phase total (fun v => armed v = false ∨ v = e.header)
    (fun i v => v = s i) e.logged disk

/-- The header is on the medium; home may be torn where the entry replays. -/
def Entry.Replaying (e : Entry) (total : UInt32) (disk : Disk Sector) : Prop :=
  Phase total (fun v => v = e.header)
    (fun i v => Bits.test e.map i = true ∨ v = e.target i)
    e.logged disk

/-- The ways a commit from `old` to `new` can be left behind. -/
inductive Interrupted (total : UInt32) (old new : Nat → Sector) (disk : Disk Sector) : Prop
  | quiet (pre : Quiet total old disk)
  | arming (e : Entry) (s : Nat → Sector) (target : e.target = new)
      (unmapped : ∀ i, i < journalMetadataSectors → Bits.test e.map i = false → s i = new i)
      (either : s = old ∨ s = new) (phase : e.Arming total s disk)
  | replaying (e : Entry) (target : e.target = new)
      (phase : e.Replaying total disk)

section Recovered

variable {total : UInt32} {old new : Nat → Sector} {disk : Disk Sector} {med : Nat → Sector}

theorem Quiet.recovered (quiet : Quiet total old disk) (image : ∀ a, disk.possible a (med a))
    (ins : i < journalMetadataSectors) : recovered med i = old i := by
  have disarmed := quiet.header _ (image journalLba)
  simp only [SxFS.recovered, replays, disarmed, Bool.false_and, Bool.false_eq_true, if_false]
  exact quiet.home i ins _ (image _)

/-- With the header on the medium, recovery ends in the entry's target. -/
theorem Entry.recovered (e : Entry) (header : med journalLba = e.header)
    (slots : ∀ i < journalMetadataSectors, e.logged i (med (slotLba i)))
    (home : ∀ i < journalMetadataSectors, Bits.test e.map i = false →
      med (homeLba i) = e.target i) (ins : i < journalMetadataSectors) :
    SxFS.recovered med i = e.target i := by
  rw [SxFS.recovered, header, e.covers i ins]
  split
  · next mapped => exact slots i ins mapped
  · next unmapped => exact home i ins (by simpa using unmapped)

section

variable (interrupted : Interrupted total old new disk)
include interrupted

/-- Whatever a cut leaves is recovered to the old or to the new metadata. -/
theorem Interrupted.recovered (image : ∀ a, disk.possible a (med a)) :
    (∀ i < journalMetadataSectors, recovered med i = old i) ∨
      (∀ i < journalMetadataSectors, recovered med i = new i) := by
  cases interrupted with
  | quiet pre => exact .inl fun i ins => pre.recovered image ins
  | arming e s target unmapped either phase =>
    rcases phase.header _ (image journalLba) with disarmed | header
    · have home (i : Nat) (ins : i < journalMetadataSectors) :
          SxFS.recovered med i = s i := by
        simp only [SxFS.recovered, replays, disarmed, Bool.false_and, Bool.false_eq_true, if_false]
        exact phase.home i ins _ (image _)
      rcases either with rfl | rfl
      · exact .inl home
      · exact .inr home
    · right
      intro i ins
      rw [e.recovered header (fun i ins => phase.slot i ins _ (image _)) ?_ ins, target]
      intro i ins missing
      rw [phase.home i ins _ (image _), unmapped i ins missing, target]
  | replaying e target phase =>
    right
    intro i ins
    rw [e.recovered (phase.header _ (image _))
      (fun i ins => phase.slot i ins _ (image _)) ?_ ins, target]
    intro i ins missing
    rcases phase.home i ins _ (image _) with mapped | same
    · rw [missing] at mapped
      cases mapped
    · exact same

/-- An interrupted commit that left no armed header anywhere left the old or the
new metadata at home. -/
theorem Interrupted.quiet_of_disarmed
    (disarmed : ∀ v, disk.possible journalLba v → armed v = false) :
    Quiet total old disk ∨ Quiet total new disk := by
  cases interrupted with
  | quiet pre => exact .inl pre
  | arming e s target unmapped either phase =>
    have quiet : Quiet total s disk := ⟨disarmed, phase.home, fun _ _ _ _ => trivial, phase.copies⟩
    rcases either with rfl | rfl
    · exact .inl quiet
    · exact .inr quiet
  | replaying e target phase =>
    have onMedium : disk.possible journalLba (disk.medium journalLba) := .inl rfl
    have header := phase.header _ onMedium
    have off := disarmed _ onMedium
    rw [header, e.isArmed] at off
    cases off

theorem Interrupted.copies : Copies total disk := by
  cases interrupted with
  | quiet pre => exact pre.copies
  | arming _ _ _ _ _ phase => exact phase.copies
  | replaying _ _ phase => exact phase.copies

end

end Recovered

end SavanXP.SxFS
