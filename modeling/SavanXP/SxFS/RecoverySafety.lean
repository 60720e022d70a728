import SavanXP.SxFS.CommitSafety
import SavanXP.SxFS.Working

/-!
# Recovery and mounting

`recoverJournal` and `loadMetadata` bring the metadata a medium is recovered to
into memory.  Whatever happens to the device on the way, the medium stays
recoverable to the same metadata.
-/

namespace SavanXP.SxFS

open SavanXP.Library

/-- A medium that is recovered to `target`: quiet, or with an entry to replay. -/
inductive Bootable (total : UInt32) (target : Nat → Sector) (disk : Disk Sector) : Prop
  | quiet (settled : Quiet total target disk)
  | pending (e : Entry) (aim : e.target = target)
      (phase : e.Replaying total disk)

variable {total : UInt32} {disk : Disk Sector}

theorem Bootable.keeps {target : Nat → Sector} {t : Disk Sector}
    (bootable : Bootable total target disk) (keeps : disk.Keeps t) : Bootable total target t := by
  cases bootable with
  | quiet settled => exact .quiet (settled.keeps keeps)
  | pending e aim phase => exact .pending e aim (phase.keeps keeps)

theorem Bootable.interrupted {target : Nat → Sector}
    (bootable : Bootable total target disk) : Interrupted total target target disk := by
  cases bootable with
  | quiet settled => exact .quiet settled
  | pending e aim phase => exact .replaying e aim phase

section Boot

variable {medium : Nat → Sector} {size : Nat}

theorem possible_boot {writable : Bool} {plan : List Fate} {a : Nat} {v : Sector} :
    (Disk.boot medium size writable plan).possible a v ↔ v = medium a := by
  simp [Disk.possible, Disk.boot]

/-- Every medium with a sound superblock pair can be booted to what it is
recovered to. -/
theorem bootable_boot {writable : Bool} {plan : List Fate}
    {target : Nat → Sector} (copies : Copies total (Disk.boot medium size writable plan))
    (aim : ∀ i < journalMetadataSectors, recovered medium i = target i) :
    Bootable total target (Disk.boot medium size writable plan) := by
  by_cases on : armed (medium journalLba) = true
  · let e : Entry :=
      { header := medium journalLba
        map := (JournalHeader.codec.symm (medium journalLba)).replayMap
        target := target
        isArmed := on
        covers := fun i _ => by rw [replays, on, Bool.true_and] }
    refine .pending e rfl ⟨fun v held => possible_boot.mp held,
      fun i ins v held => ?_, fun i ins v held mapped => ?_, copies⟩
    · rw [possible_boot.mp held]
      have here := aim i ins
      rw [recovered, e.covers i ins] at here
      by_cases mapped : Bits.test e.map i = true
      · exact .inl mapped
      · rw [if_neg mapped] at here
        exact .inr here
    · rw [possible_boot.mp held]
      have here := aim i ins
      rw [recovered, e.covers i ins, if_pos mapped] at here
      exact here
  · have off : armed (medium journalLba) = false := by simpa using on
    refine .quiet ⟨fun v held => ?_, fun i ins v held => ?_, fun _ _ _ _ => trivial, copies⟩
    · rw [possible_boot.mp held]
      exact off
    · rw [possible_boot.mp held, ← aim i ins]
      simp only [recovered, replays, off, Bool.false_and, Bool.false_eq_true, if_false]

theorem Copies.boot (copies : Copies total disk)
    (image : ∀ a, disk.possible a (medium a)) (room : total.toNat ≤ size)
    (writable : Bool) (plan : List Fate) : Copies total (Disk.boot medium size writable plan) := by
  refine ⟨fun a copy v held => ?_, ?_, room⟩
  · rw [possible_boot.mp held]
    exact copies.agree a copy _ (image a)
  obtain ⟨a, copy, valid⟩ := copies.valid
  refine ⟨a, copy, fun v held => ?_⟩
  rw [possible_boot.mp held]
  exact valid _ (image a)

/-- A cut leaves a medium that boots to the old or to the new metadata. -/
theorem Interrupted.boot {old new : Nat → Sector}
    (interrupted : Interrupted total old new disk) (image : disk.Image medium)
    (room : total.toNat ≤ size) : (∀ plan, Bootable total old (Disk.boot medium size true plan)) ∨
      ∀ plan, Bootable total new (Disk.boot medium size true plan) := by
  have copies (plan : List Fate) : Copies total (Disk.boot medium size true plan) :=
    interrupted.copies.boot image.possible room true plan
  exact (interrupted.recovered image.possible).imp
    (fun same plan => bootable_boot (copies plan) same)
    (fun same plan => bootable_boot (copies plan) same)

end Boot

/-! ## Replaying an entry -/

section Replay

variable {pre : Volume} {total : UInt32} {target : Nat → Sector} {e : Entry}
  {history : Disk Sector → Prop}

/-- Home sectors below `bound` have been rewritten. -/
structure Rewritten (e : Entry) (total : UInt32) (bound : Nat) (disk : Disk Sector) : Prop where
  phase : e.Replaying total disk
  done : ∀ i, i < bound → disk.view (homeLba i) = e.target i
  durable : 0 < bound → disk.cached = []

theorem view_metadataRun {md : Metadata} {view : Nat → Sector} {i pos last : Nat}
    (below : pos < last) :
    store (cells (homeLba i) (metadataRun md i last)) view (homeLba pos) =
      if pos < i then view (homeLba pos) else metadataSector md pos := by
  split
  · apply store_other
    rintro ⟨a, v⟩ written rfl
    obtain ⟨o, low, _, place, _⟩ := mem_cells_metadataRun.mp written
    have same := homeLba_inj place
    omega
  · refine store_agreed (mem_cells_metadataRun.mpr
      ⟨pos, by omega, below, rfl, rfl⟩) fun o written => ?_
    obtain ⟨found, _, _, place, same⟩ := mem_cells_metadataRun.mp written
    obtain rfl := homeLba_inj place
    exact same

theorem rewrite_step (kept : ∀ disk, e.Replaying total disk → history disk) {i last : Nat}
    (ins : last ≤ journalMetadataSectors) (content : ∀ pos < journalMetadataSectors,
      metadataSector pre.metadata pos = e.target pos) :
    Triple (At pre history (Rewritten e total i))
      (writeSectors (homeLba i) (metadataRun pre.metadata i last) .durable)
      (At pre history (Rewritten e total last)) (At pre history (e.Replaying total)) := by
  have placed : ∀ a v,
      (a, v) ∈ cells (homeLba i) (metadataRun pre.metadata i last) →
      ∃ pos, pos < journalMetadataSectors ∧ a = homeLba pos ∧
        (Bits.test e.map pos = true ∨ v = e.target pos) := by
    intro a v written
    obtain ⟨pos, low, high, place, same⟩ := mem_cells_metadataRun.mp written
    exact ⟨pos, by omega, place, .inr (same.trans (content pos (by omega)))⟩
  refine write_step kept (fun _ _ held touches => held.phase.touchHome touches placed)
    (fun disk t held touches view durable => ⟨held.phase.touchHome touches placed,
      fun pos below => ?_, fun _ => durable rfl⟩)
  rw [view, view_metadataRun below]
  split
  · exact held.done pos ‹_›
  · exact content pos (by omega)

theorem only_of_durable (durable : disk.cached = []) {a : Nat} {v : Sector}
    (held : disk.possible a v) : v = disk.view a := by
  rw [Disk.view, durable]
  exact held.on_medium durable

theorem Rewritten.armed (rewritten : Rewritten e total journalMetadataSectors disk) :
    e.Armed total e.target disk :=
  rewritten.phase.settled (fun _ _ held => only_of_durable (rewritten.durable (by decide)) held)
    (Disk.Touches.refl _ _) rewritten.phase.viewHeader rewritten.done
    (fun _ ins => rewritten.phase.viewSlot ins)

/-- Home, superblocks and header of a replay, in this order. -/
theorem replay_triple
    (kept : ∀ disk, Interrupted total e.target e.target disk → history disk)
    (layout : pre.superblock.layoutValid = true)
    (size : pre.superblock.totalSectors = total) (content : ∀ pos < journalMetadataSectors,
      metadataSector pre.metadata pos = e.target pos) (seq : UInt32) :
    Triple (At pre history (e.Replaying total))
      (allOf [writeHomeMetadata, writeSuperblocks seq flagClean .durable,
        clearJournal .durable]) (At pre history (Quiet total e.target))
      (At pre history (Interrupted total e.target e.target)) := by
  have replaying : ∀ disk, e.Replaying total disk →
      Interrupted total e.target e.target disk :=
    fun disk phase => .replaying e rfl phase
  have arming : ∀ disk, e.Arming total e.target disk →
      Interrupted total e.target e.target disk :=
    fun disk phase => .arming e e.target rfl (fun _ _ _ => rfl) (.inl rfl) phase
  have home : Triple (At pre history (e.Replaying total)) writeHomeMetadata
      (At pre history (e.Armed total e.target))
      (At pre history (Interrupted total e.target e.target)) := by
    intro s held
    have ran := home_step layout
      (fun ins => rewrite_step (fun disk phase => kept disk (replaying disk phase)) ins content) s
      ⟨held.1, ⟨held.2.1, fun _ bad => (by omega), fun bad => (by omega)⟩, held.2.2⟩
    exact ⟨fun worked => ⟨(ran.1 worked).1, (ran.1 worked).2.1.armed, (ran.1 worked).2.2⟩,
      fun failed => ⟨(ran.2 failed).1, replaying _ (ran.2 failed).2.1, (ran.2 failed).2.2⟩⟩
  have clear : Triple (At pre history (e.Armed total e.target)) (clearJournal .durable)
      (At pre history (Quiet total e.target))
      (At pre history (Interrupted total e.target e.target)) := by
    refine clear_step layout (write_step kept
      (fun _ _ held touches => arming _ (held.arming.touchHeader touches
        (.inl armed_clearedHeader)))
      (fun disk t held touches view durable => ?_))
    have touched := held.arming.touchHeader touches (.inl armed_clearedHeader)
    refine touched.settled (fun _ _ held => only_of_durable (durable rfl) held)
      (Disk.Touches.refl _ _) ?_ (fun _ ins => touched.viewHome ins) (fun _ _ => trivial)
    rw [view, store_cells_single]
    exact armed_clearedHeader
  exact home.cons <| (Entry.seal_step kept arming layout size).cons <| clear.cons <|
    Triple.nil fun _ done => done

end Replay

/-! ## `recoverJournal` -/

/-- What recovery towards `target` leaves behind. -/
structure Recovery (total : UInt32) (target : Nat → Sector) (history : Disk Sector → Prop)
    (pre : Volume) (out : RecoveryState) (s : State) : Prop where
  frame : s.volume = { pre with
    superblock := s.volume.superblock
    metadata := s.volume.metadata }
  layout : s.volume.superblock.layoutValid = true
  size : s.volume.superblock.totalSectors = total
  medium : Interrupted total target target s.disk
  past : ∀ epoch ∈ s.disk.past, history (s.disk.before epoch)
  loaded : out ≠ .failed →
    (∀ i, i < journalMetadataSectors → metadataSector s.volume.metadata i = target i) ∧
    homeMetadataIsValid s.volume.superblock s.volume.metadata = true
  settled : out = .writable → Quiet total target s.disk

theorem Volume.Restamped.homeMetadataIsValid {pre volume : Volume}
    (same : pre.Restamped volume) (layout : pre.superblock.layoutValid = true)
    (valid : SxFS.homeMetadataIsValid pre.superblock pre.metadata = true) :
    SxFS.homeMetadataIsValid volume.superblock volume.metadata = true := by
  rw [same.metadata, homeMetadataIsValid_congr
    (Superblock.dataLba_eq (same.layout.trans layout) layout) same.total, valid]

section Recover

variable (s : State) {total : UInt32} {target : Nat → Sector} {history : Disk Sector → Prop}

section

variable (layout : s.volume.superblock.layoutValid = true)
  (size : s.volume.superblock.totalSectors = total)
  (past : ∀ epoch ∈ s.disk.past, history (s.disk.before epoch))
include layout size past

theorem Recovery.failed {pre : Volume}
    (frame : s.volume = { pre with metadata := s.volume.metadata })
    (medium : Bootable total target s.disk) :
    Recovery total target history pre .failed s := by
  refine ⟨?_, layout, size, medium.interrupted, past, fun not => absurd rfl not,
    nofun⟩
  have superblock : s.volume.superblock = pre.superblock := by rw [frame]
  rw [superblock]
  exact frame

/-- A quiet volume is in memory already; at most it is marked clean. -/
theorem recoverHome_spec
    (kept : ∀ disk, Interrupted total target target disk → history disk)
    (quiet : Quiet total target s.disk)
    (content : ∀ i < journalMetadataSectors, metadataSector s.volume.metadata i = target i) :
    Recovery total target history s.volume (recoverHome s).1 (recoverHome s).2 := by
  obtain ⟨volume, touches⟩ := writeSuperblocks_touches s.volume.superblock.sequence flagClean
    .durable s
  have same : s.volume.Restamped
      (writeSuperblocks s.volume.superblock.sequence flagClean .durable s).2.volume :=
    volume ▸ Volume.restamped_stamped _ _ _
  have still {t : Disk Sector} (touches : s.disk.Touches (copyWrite
      (s.volume.superblock.stamped s.volume.superblock.sequence flagClean)) t) :
      Quiet total target t :=
    quiet.touchCopies touches
      (fun _ _ written => size ▸ copyWrite_valid layout _ flagClean written)
  unfold recoverHome
  split
  · exact Recovery.failed s layout size past rfl (.quiet quiet)
  · next passed =>
    have valid : homeMetadataIsValid s.volume.superblock s.volume.metadata = true := by
      simpa using passed
    have marked (out : RecoveryState) : Recovery total target history s.volume out
        (writeSuperblocks s.volume.superblock.sequence flagClean .durable s).2 := by
      refine ⟨?_, same.layout.trans layout, same.total.trans size, .quiet (still touches),
        touches.recorded (fun t touches => kept t (.quiet (still touches))) past,
        fun _ => ⟨fun i ins => ?_, same.homeMetadataIsValid layout valid⟩,
        fun _ => still touches⟩
      · rw [same.metadata]
        exact same.frame
      · rw [same.metadata]
        exact content i ins
    split
    · exact ⟨rfl, layout, size, .quiet quiet, past, fun _ => ⟨content, valid⟩, fun _ => quiet⟩
    split <;> rename_i res <;> rw [res] at marked <;> exact marked _

omit layout size past in
/-- The slots read over the home metadata give the entry's target. -/
theorem replayed_target {e : Entry} (phase : e.Replaying total s.disk)
    (layout : s.volume.superblock.layoutValid = true) {md : Metadata}
    (home : ∀ i < journalMetadataSectors,
      metadataSector s.volume.metadata i = s.disk.view (homeLba i))
    (sectors : ∀ i < journalMetadataSectors, metadataSector md i =
      if Bits.test (JournalHeader.codec.symm e.header).replayMap i then
        s.disk.view (s.volume.superblock.journalLba.toNat + 1 + i)
      else metadataSector s.volume.metadata i) {i : Nat} (ins : i < journalMetadataSectors) :
    metadataSector md i = e.target i := by
  have covered := e.covers i ins
  rw [replays, e.isArmed, Bool.true_and] at covered
  rw [sectors i ins, covered, (s.volume.superblock.layout layout).journalLba]
  split
  · next mapped => exact phase.viewSlot ins mapped
  · next unmapped =>
    rw [home i ins]
    exact (phase.viewHome ins).resolve_left unmapped

theorem replayJournal_spec {e : Entry}
    (kept : ∀ disk, Interrupted total e.target e.target disk → history disk)
    (phase : e.Replaying total s.disk) (home : ∀ i < journalMetadataSectors,
      metadataSector s.volume.metadata i = s.disk.view (homeLba i)) :
    Recovery total e.target history s.volume
      (replayJournal (JournalHeader.codec.symm e.header) s).1
      (replayJournal (JournalHeader.codec.symm e.header) s).2 := by
  have reading := transfer_read (JournalHeader.codec.symm e.header).replayMap
    (s.volume.superblock.journalLba.toNat + 1) s s rfl
  have recorded := fun {t : Disk Sector} (untouched : s.disk.Keeps t) => untouched.recorded
    (fun t keeps => kept t (.replaying e rfl (phase.keeps keeps))) past
  unfold replayJournal
  split
  · next t stopped =>
    rw [stopped] at reading
    obtain ⟨untouched, frame⟩ := reading.2 rfl
    have superblock : t.volume.superblock = s.volume.superblock := by rw [frame]
    exact Recovery.failed t (superblock ▸ layout) (superblock ▸ size) (recorded untouched) frame
      (.pending e rfl (phase.keeps untouched))
  · next t ran =>
    rw [ran] at reading
    obtain ⟨untouched, same, frame, sectors⟩ := reading.1 rfl
    have superblock : t.volume.superblock = s.volume.superblock := by rw [frame]
    have layoutLater : t.volume.superblock.layoutValid = true := superblock ▸ layout
    have sizeLater : t.volume.superblock.totalSectors = total := superblock ▸ size
    have content : ∀ i < journalMetadataSectors,
        metadataSector t.volume.metadata i = e.target i :=
      fun i ins => replayed_target s phase layout home sectors ins
    split
    · exact Recovery.failed t layoutLater sizeLater (recorded untouched) frame
        (.pending e rfl (phase.keeps untouched))
    · next passed =>
      have valid : homeMetadataIsValid t.volume.superblock t.volume.metadata = true := by
        simpa using passed
      have steps := replay_triple kept layoutLater sizeLater content
        (JournalHeader.codec.symm e.header).sequence t
        ⟨Volume.Restamped.refl _, phase.keeps untouched, recorded untouched⟩
      have finish {last : State} (same : t.volume.Restamped last.volume)
          (medium : Interrupted total e.target e.target last.disk)
          (past : ∀ epoch ∈ last.disk.past, history (last.disk.before epoch))
          (out : RecoveryState)
          (settled : out = .writable → Quiet total e.target last.disk) :
          Recovery total e.target history s.volume out last := by
        refine ⟨?_, same.layout.trans layoutLater, same.total.trans sizeLater, medium, past,
          fun _ => ⟨fun i ins => ?_, same.homeMetadataIsValid layoutLater valid⟩, settled⟩
        · have outer := same.frame
          rw [frame] at outer
          rw [outer]
        · rw [same.metadata, content i ins]
      split
      · next last done =>
        rw [done] at steps
        obtain ⟨same, settled, past⟩ := steps.1 rfl
        exact finish same (.quiet settled) past _ fun _ => settled
      · next last done =>
        rw [done] at steps
        obtain ⟨same, medium, past⟩ := steps.2 rfl
        exact finish same medium past _ nofun

/-- Recovery reads the target into memory and keeps the medium recoverable to
it; a writable outcome leaves it at home. -/
theorem recoverJournal_spec
    (kept : ∀ disk, Interrupted total target target disk → history disk)
    (start : Bootable total target s.disk) (home : ∀ i < journalMetadataSectors,
      metadataSector s.volume.metadata i = s.disk.view (homeLba i)) :
    Recovery total target history s.volume (recoverJournal s).1 (recoverJournal s).2 := by
  have keeps := s.disk.read_keeps s.volume.superblock.journalLba.toNat 1
  have recorded := keeps.recorded (fun t keeps => kept t (start.keeps keeps).interrupted) past
  unfold recoverJournal
  split
  · next t missing =>
    rw [missing] at keeps recorded
    exact Recovery.failed { s with disk := t } layout size recorded rfl (start.keeps keeps)
  · next buf t found =>
    rw [found] at keeps recorded
    obtain ⟨content, ticked⟩ := Disk.read_some found
    have view : t.view = s.disk.view := by rw [ticked, Disk.view_tick]
    have header : buf 0 = t.view journalLba := by
      rw [content, view, (s.volume.superblock.layout layout).journalLba]
      rfl
    rw [← view] at home
    dsimp only
    rw [← not_armed]
    cases start.keeps keeps with
    | quiet settled =>
      have off := settled.viewHeader
      rw [← header] at off
      rw [if_pos (by rw [off]; rfl)]
      exact recoverHome_spec { s with disk := t } layout size recorded kept settled
        fun i ins => (home i ins).trans (settled.viewHome ins)
    | pending e aim phase =>
      subst aim
      have on := phase.viewHeader
      rw [← header] at on
      rw [on, if_neg (by rw [e.isArmed]; decide)]
      exact replayJournal_spec { s with disk := t } layout size recorded kept phase home

end

end Recover

/-! ## Mounting -/

/-- Reading home: all three regions come from the device. -/
theorem readHomeMetadata_spec (pre : State) (layout : pre.volume.superblock.layoutValid = true) :
    Triple (fun s => s = pre) readHomeMetadata
      (fun s => pre.disk.Keeps s.disk ∧ s.disk.view = pre.disk.view ∧
        s.volume = { pre.volume with metadata := s.volume.metadata } ∧
        ∀ i < journalMetadataSectors,
          metadataSector s.volume.metadata i = pre.disk.view (homeLba i))
      (fun s => pre.disk.Keeps s.disk ∧ s.volume = pre.volume) := by
  rintro s rfl
  have place := s.volume.superblock.layout layout
  unfold readHomeMetadata
  dsimp only
  have one := s.disk.read_keeps s.volume.superblock.blockBitmapLba.toNat
    s.volume.superblock.blockBitmapSectors.toNat
  split
  · next first missing =>
    rw [missing] at one
    exact ⟨nofun, fun _ => ⟨one, rfl⟩⟩
  · next blocks first foundBlocks =>
    rw [foundBlocks] at one
    obtain ⟨blockData, firstEq⟩ := Disk.read_some foundBlocks
    have two := first.read_keeps s.volume.superblock.inodeBitmapLba.toNat
      s.volume.superblock.inodeBitmapSectors.toNat
    split
    · next second missing =>
      rw [missing] at two
      exact ⟨nofun, fun _ => ⟨one.trans two, rfl⟩⟩
    · next bits second foundBits =>
      rw [foundBits] at two
      obtain ⟨bitData, secondEq⟩ := Disk.read_some foundBits
      have three := second.read_keeps s.volume.superblock.inodeTableLba.toNat
        s.volume.superblock.inodeTableSectors.toNat
      split
      · next third missing =>
        rw [missing] at three
        exact ⟨nofun, fun _ => ⟨(one.trans two).trans three, rfl⟩⟩
      · next inodes third foundInodes =>
        rw [foundInodes] at three
        obtain ⟨inodeData, thirdEq⟩ := Disk.read_some foundInodes
        refine ⟨fun _ => ⟨(one.trans two).trans three, ?_, rfl, fun i ins => ?_⟩,
          nofun⟩
        · rw [thirdEq, secondEq, firstEq]
          rfl
        rw [metadataSector_ofSectors _ ins, blockData, bitData, inodeData, secondEq,
          firstEq, Disk.view_tick, Disk.view_tick, place.blockBitmapLba,
          place.inodeBitmapLba, place.inodeTableLba]
        split
        · rfl
        · next late =>
          split
          · have here : inodeBitmapLba + (i - inodeBitmapIndex) = homeLba i := by
              simp only [inodeBitmapLba, inodeBitmapIndex, homeLba] at late ⊢
              omega
            exact congrArg s.disk.view here
          · next t =>
            have here : inodeTableLba + (i - inodeTableIndex) = homeLba i := by
              simp only [inodeTableLba, inodeBitmapLba, inodeTableIndex, homeLba] at t ⊢
              omega
            exact congrArg s.disk.view here

theorem chooseSuperblock_some {primary secondary : Option Superblock} {sb : Superblock}
    (chosen : chooseSuperblock primary secondary = some sb) :
    superblockValid sb = true ∧ (primary = some sb ∨ secondary = some sb) := by
  have filtered {copy : Option Superblock} {sb : Superblock}
      (kept : copy.filter superblockValid = some sb) : superblockValid sb = true ∧
        copy = some sb := by
    obtain ⟨here, valid⟩ := Option.filter_eq_some_iff.mp kept
    exact ⟨valid, here⟩
  unfold chooseSuperblock at chosen
  split at chosen
  · cases chosen
  · next first _ =>
    cases chosen
    exact (filtered first).imp_right .inl
  · next _ second =>
    cases chosen
    exact (filtered second).imp_right .inr
  · next first second =>
    split at chosen <;> cases chosen
    · exact (filtered first).imp_right .inl
    · exact (filtered second).imp_right .inr

section Load

variable (s : State) {total : UInt32} {target : Nat → Sector}

/-- Loading fails with the device as it was, or it has chosen a valid superblock and read
home, and recovers. -/
theorem loadMetadata_cases : ((loadMetadata s).1 = .failed ∧ s.disk.Keeps (loadMetadata s).2.disk) ∨
    ∃ lba v t, isCopy lba ∧ s.disk.possible lba v ∧ copyValid v = true ∧ s.disk.Keeps t.disk ∧
      t.volume = { s.volume with
        superblock := Superblock.codec.symm v, metadata := t.volume.metadata } ∧
      (∀ i < journalMetadataSectors, metadataSector t.volume.metadata i = t.disk.view (homeLba i)) ∧
      loadMetadata s = recoverJournal t := by
  unfold loadMetadata
  generalize readFirst : s.disk.read primarySbLba 1 = first
  obtain ⟨primary, afterFirst⟩ := first
  have keepFirst := s.disk.read_keeps primarySbLba 1
  rw [readFirst] at keepFirst
  dsimp only
  generalize readSecond : afterFirst.read secondarySbLba 1 = second
  obtain ⟨secondary, disk⟩ := second
  have keepSecond := afterFirst.read_keeps secondarySbLba 1
  rw [readSecond] at keepSecond
  have keeps := keepFirst.trans keepSecond
  split
  · exact .inl ⟨rfl, keeps⟩
  next sb chosen =>
    obtain ⟨valid, source⟩ := chooseSuperblock_some chosen
    have copied : ∃ lba v, isCopy lba ∧ s.disk.possible lba v ∧ sb = Superblock.codec.symm v := by
      rcases source with here | here
      · obtain ⟨buf, rfl, rfl⟩ := Option.map_eq_some_iff.mp here
        rw [(Disk.read_some readFirst).1]
        exact ⟨_, _, .inl rfl, s.disk.view_possible _, rfl⟩
      · obtain ⟨buf, rfl, rfl⟩ := Option.map_eq_some_iff.mp here
        rw [(Disk.read_some readSecond).1]
        have before := keepFirst.possible _ _ (afterFirst.view_possible secondarySbLba)
        exact ⟨_, _, .inr rfl, before.resolve_right id, rfl⟩
    obtain ⟨lba, v, copy, possible, rfl⟩ := copied
    split
    · exact .inl ⟨rfl, keeps⟩
    have reading := readHomeMetadata_spec
      { volume := { s.volume with superblock := _ }, disk }
        (Superblock.layoutValid_of_valid valid) _ rfl
    split
    · next t stopped =>
      rw [stopped] at reading
      exact .inl ⟨rfl, keeps.trans (reading.2 rfl).1⟩
    · next t ran =>
      rw [ran] at reading
      obtain ⟨kept, same, frame, home⟩ := reading.1 rfl
      rw [← same] at home
      exact .inr ⟨lba, v, t, copy, possible, valid, keeps.trans kept, frame, home, rfl⟩

/-- Mounting brings what the medium is recovered to into memory and keeps it
recoverable to that. -/
theorem loadMetadata_spec {history : Disk Sector → Prop}
    (kept : ∀ disk, Interrupted total target target disk → history disk)
    (past : ∀ epoch ∈ s.disk.past, history (s.disk.before epoch))
    (start : Bootable total target s.disk) :
    Interrupted total target target (loadMetadata s).2.disk ∧
      (∀ epoch ∈ (loadMetadata s).2.disk.past,
        history ((loadMetadata s).2.disk.before epoch)) ∧ ((loadMetadata s).1 ≠ .failed →
        Recovery total target history s.volume (loadMetadata s).1 (loadMetadata s).2) := by
  have recorded := fun {t : Disk Sector} (keeps : s.disk.Keeps t) =>
    keeps.recorded (fun t keeps => kept t (start.keeps keeps).interrupted) past
  rcases loadMetadata_cases s with
    ⟨failed, keeps⟩ | ⟨lba, v, t, copy, possible, valid, keeps, frame, home, same⟩
  · exact ⟨(start.keeps keeps).interrupted, recorded keeps, absurd failed⟩
  have superblock : t.volume.superblock = Superblock.codec.symm v := by rw [frame]
  have size : t.volume.superblock.totalSectors = total := by
    rw [superblock]
    exact start.interrupted.copies.agree lba copy v possible valid
  have recovery := recoverJournal_spec t (superblock ▸ Superblock.layoutValid_of_valid valid)
    size (recorded keeps) kept (start.keeps keeps) home
  rw [same]
  refine ⟨recovery.medium, recovery.past, fun _ => { recovery with frame := ?_ }⟩
  have outer := recovery.frame
  rw [frame] at outer
  exact outer

theorem loadMetadata_recovers (start : Bootable total target s.disk) :
    (loadMetadata s).1 ≠ .failed →
      Recovery total target anyPast s.volume (loadMetadata s).1 (loadMetadata s).2 :=
  (loadMetadata_spec s (fun _ _ => trivial) (fun _ _ => trivial) start).2.2

/-! ### On a healthy device -/

theorem readHomeMetadata_works : Works readHomeMetadata := by
  refine Works.of_result fun s working => ?_
  have place := s.volume.superblock.layout working.layout
  have blocks : s.disk.inRange blockBitmapLba blockBitmapSectors = true :=
    working.inRange (by decide) (by decide)
  have bits : s.disk.inRange inodeBitmapLba inodeBitmapSectors = true :=
    working.inRange (by decide) (by decide)
  have inodes : s.disk.inRange inodeTableLba inodeTableSectors = true :=
    working.inRange (by decide) (by decide)
  unfold readHomeMetadata
  dsimp only
  rw [place.blockBitmapLba, place.blockBitmapSectors, working.healthy.read blocks]
  dsimp only
  rw [place.inodeBitmapLba, place.inodeBitmapSectors, working.healthy.read bits]
  dsimp only
  rw [place.inodeTableLba, place.inodeTableSectors, working.healthy.read inodes]
  exact ⟨rfl, working.healthy, working.layout, working.room⟩

theorem recoverHome_works (working : Working s)
    (valid : homeMetadataIsValid s.volume.superblock s.volume.metadata = true) :
    (recoverHome s).1 = .writable ∧ Working (recoverHome s).2 := by
  obtain ⟨t, ran, after⟩ := (writeSuperblocks_sure s.volume.superblock.sequence flagClean
    .durable).works.run working
  unfold recoverHome
  rw [valid, if_neg (by decide), ran]
  split
  · exact ⟨rfl, working⟩
  · exact ⟨rfl, after⟩

theorem replayJournal_works {header : JournalHeader} (working : Working s)
    (valid : ∀ t : State, transferMetadataSectors header.replayMap
      (s.volume.superblock.journalLba.toNat + 1) false s = (true, t) →
      homeMetadataIsValid t.volume.superblock t.volume.metadata = true) :
    (replayJournal header s).1 = .writable ∧ Working (replayJournal header s).2 := by
  have here := (s.volume.superblock.layout working.layout).journalLba
  obtain ⟨t, ran, reading⟩ := (transfer_works header.replayMap (journalLba + 1) false
    (by decide)).run working
  rw [← here] at ran
  have steps : Works (allOf [writeHomeMetadata,
      writeSuperblocks header.sequence flagClean .durable, clearJournal .durable]) :=
    writeHomeMetadata_works.cons <| (writeSuperblocks_sure _ _ _).works.cons <|
      (clearJournal_works _).cons <| Triple.nil fun _ done => done
  obtain ⟨last, done, after⟩ := steps.run reading
  unfold replayJournal
  rw [ran]
  dsimp only
  rw [valid t ran, if_neg (by decide), done]
  exact ⟨rfl, after⟩

/-- Metadata that passes validation on a volume of `total` sectors. -/
def ValidFor (total : UInt32) (md : Metadata) : Prop :=
  ∀ sb : Superblock, sb.layoutValid = true → sb.totalSectors = total →
    homeMetadataIsValid sb md = true

theorem validFor_of_valid {sb : Superblock} (layout : sb.layoutValid = true) {md : Metadata}
    (valid : homeMetadataIsValid sb md = true) : ValidFor sb.totalSectors md := by
  intro o otherLayout size
  rw [homeMetadataIsValid_congr (Superblock.dataLba_eq otherLayout layout) size, valid]

variable {md : Metadata}

theorem recoverJournal_works (working : Working s) (size : s.volume.superblock.totalSectors = total)
    (start : Bootable total (metadataSector md) s.disk) (home : ∀ i < journalMetadataSectors,
      metadataSector s.volume.metadata i = s.disk.view (homeLba i)) (valid : ValidFor total md) :
    (recoverJournal s).1 = .writable ∧ Working (recoverJournal s).2 := by
  have here := (s.volume.superblock.layout working.layout).journalLba
  have range : s.disk.inRange journalLba 1 = true := working.inRange (by decide) (by decide)
  unfold recoverJournal
  rw [here, working.healthy.read range]
  dsimp only
  rw [← not_armed, Nat.add_zero]
  cases start with
  | quiet settled =>
    have content : s.volume.metadata = md := Metadata.ext_sectors fun i ins =>
      (home i ins).trans (settled.viewHome ins)
    rw [if_pos (by rw [settled.viewHeader]; rfl)]
    exact recoverHome_works s working (content ▸ valid _ working.layout size)
  | pending e aim phase =>
    rw [phase.viewHeader, if_neg (by rw [e.isArmed]; decide)]
    refine replayJournal_works s working fun t ran => ?_
    have reading := transfer_read (JournalHeader.codec.symm e.header).replayMap
      (s.volume.superblock.journalLba.toNat + 1) s s rfl
    rw [ran] at reading
    obtain ⟨untouched, same, frame, sectors⟩ := reading.1 rfl
    have content : t.volume.metadata = md := Metadata.ext_sectors fun i ins => by
      rw [replayed_target s phase working.layout home sectors ins, aim]
    have superblock : t.volume.superblock = s.volume.superblock := by rw [frame]
    rw [content, superblock]
    exact valid _ working.layout size

theorem chooseSuperblock_valid {primary secondary : Superblock}
    (valid : superblockValid primary = true ∨ superblockValid secondary = true) :
    ∃ sb, chooseSuperblock (some primary) (some secondary) = some sb := by
  unfold chooseSuperblock
  split
  · next first second =>
    rw [Option.filter_eq_none_iff] at first second
    rcases valid with here | here
    · exact absurd here (first primary rfl)
    · exact absurd here (second secondary rfl)
  · exact ⟨_, rfl⟩
  · exact ⟨_, rfl⟩
  · split <;> exact ⟨_, rfl⟩

/-- On a healthy device a medium that is recovered to valid metadata mounts, with
exactly that metadata in memory and at home. -/
theorem loadMetadata_works (healthy : s.disk.Healthy)
    (start : Bootable total (metadataSector md) s.disk) (large : dataLba < total.toNat)
    (valid : ValidFor total md) : ∃ t, loadMetadata s = (.writable, t) ∧ Working t ∧
      t.volume.metadata = md := by
  have spec := loadMetadata_recovers s start
  have copies := start.interrupted.copies
  have room := copies.room
  suffices out : (loadMetadata s).1 = .writable ∧ Working (loadMetadata s).2 by
    refine ⟨_, Prod.ext out.1 rfl, out.2, Metadata.ext_sectors fun i ins => ?_⟩
    have recovery := spec (by rw [out.1]; decide)
    exact (recovery.loaded (by rw [out.1]; decide)).1 i ins
  have first : s.disk.inRange primarySbLba 1 = true := Disk.inRange_iff.mpr ⟨by decide, by
    simp only [primarySbLba]; omega⟩
  have second : s.disk.inRange secondarySbLba 1 = true := Disk.inRange_iff.mpr ⟨by decide, by
    simp only [secondarySbLba, dataLba, inodeTableLba, inodeTableSectors] at large ⊢; omega⟩
  have someValid : superblockValid (Superblock.codec.symm (s.disk.view primarySbLba)) = true ∨
      superblockValid (Superblock.codec.symm (s.disk.view secondarySbLba)) = true := by
    obtain ⟨a, copy, good⟩ := copies.valid
    rcases copy with rfl | rfl
    · exact .inl (good _ (s.disk.view_possible _))
    · exact .inr (good _ (s.disk.view_possible _))
  obtain ⟨sb, chosen⟩ := chooseSuperblock_valid someValid
  obtain ⟨sbValid, source⟩ := chooseSuperblock_some chosen
  have size : sb.totalSectors = total := by
    rcases source with here | here
    · cases here
      exact copies.agree _ (.inl rfl) _ (s.disk.view_possible _) sbValid
    · cases here
      exact copies.agree _ (.inr rfl) _ (s.disk.view_possible _) sbValid
  have working : Working { volume := { s.volume with superblock := sb }, disk := s.disk } :=
    ⟨healthy, Superblock.layoutValid_of_valid sbValid, size ▸ room⟩
  unfold loadMetadata
  rw [healthy.read first]
  dsimp only
  rw [healthy.read second]
  dsimp only [Option.map]
  rw [Nat.add_zero, Nat.add_zero, chosen]
  dsimp only
  rw [if_neg (by rw [size]; omega)]
  obtain ⟨t, ran, after⟩ := readHomeMetadata_works.run working
  have reading := readHomeMetadata_spec _ working.layout _ rfl
  rw [ran] at reading ⊢
  obtain ⟨keeps, same, frame, home⟩ := reading.1 rfl
  have superblock : t.volume.superblock = sb := by rw [frame]
  exact recoverJournal_works t after (superblock ▸ size) (start.keeps keeps)
    (fun i ins => by rw [home i ins, same]) valid

end Load

end SavanXP.SxFS
