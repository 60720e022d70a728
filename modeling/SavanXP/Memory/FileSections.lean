import Mathlib

/-!
# Sections of files

`section_open` gives a process the bytes of a file as memory.  The sections of files on
a volume are kept by file and range for as long as anybody holds them, with the bytes
and the access of the first process that opened them.
-/

namespace SavanXP.FileSections

open List Function

/-! ## Objects -/

def pageSize : Nat := 4096
def maxSectionBytes : Nat := 2 ^ 26
def maxSections : Nat := 256

/-- The access bits of a section, and the flags that ask for them. -/
structure Access where
  read : Bool
  write : Bool
  execute : Bool
  deriving DecidableEq

/-- `(access & mask) == access`. -/
def Access.within (access mask : Access) : Bool :=
  (!access.read || mask.read) && (!access.write || mask.write) && (!access.execute || mask.execute)

/-- `object_access_for_section_flags`. -/
def accessFor (flags default : Access) : Access :=
  if flags = ⟨false, false, false⟩ then default else flags

/-- A vnode of a regular file: on a volume, or in memory. -/
structure File where
  volume : Bool
  contents : List UInt8

/-- `SectionObject` of a file; `node` is the vnode it is kept by, of a file on a volume. -/
structure Object where
  node : Option Nat
  offset : Nat
  length : Nat
  access : Access
  memory : List UInt8
  refs : Nat

structure Handle where
  slot : Nat
  granted : Access
  deriving DecidableEq

/-- Handles and views are numbered over all processes. -/
structure Machine where
  files : Nat → File
  sections : Nat → Option Object := fun _ => none
  handles : Nat → Option Handle := fun _ => none
  views : Nat → Option Nat := fun _ => none

/-- What `section_open` is asked for, and what happens on the way: whether there is memory,
which reads of the volume work, and the handle that is free. -/
structure Open where
  node : Nat
  offset : Nat
  length : Nat
  flags : Access
  memory : Bool
  works : Nat → Bool
  handle : Option Nat

inductive MapResult
  | mapped
  | EBADF
  | EACCES
  | EINVAL
  | ENOMEM
  deriving DecidableEq

/-! ## Reading the file -/

def slice (bytes : List UInt8) (offset n : Nat) : List UInt8 := (bytes.drop offset).take n

/-- `vfs::read`; `works` is the answer of the volume's driver. -/
def vfsRead (file : File) (works : Bool) (offset n : Nat) : List UInt8 :=
  if n = 0 ∨ file.contents.length ≤ offset then []
  else if file.volume && !works then []
  else slice file.contents offset (min (file.contents.length - offset) n)

/-- Bytes copied to a place in memory. -/
def patch (memory : List UInt8) (start : Nat) (bytes : List UInt8) : List UInt8 :=
  memory.take start ++ bytes ++ memory.drop (start + bytes.length)

/-- The loop of `acquire_file_range_section`.  Every read goes to the start of a page; there
are fewer rounds than bytes. -/
def fill (file : File) (works : Nat → Bool) (offset size : Nat) : Nat → Nat → List UInt8 →
    List UInt8
  | 0, _, memory => memory
  | rounds + 1, filled, memory =>
    if filled < size then
      let chunk := min pageSize (size - filled)
      let got := vfsRead file (works filled) (offset + filled) chunk
      if got = [] then memory
      else
        fill file works offset size rounds (filled + got.length)
          (patch memory (filled / pageSize * pageSize) got)
    else memory

def alignUp (size : Nat) : Nat := (size + (pageSize - 1)) / pageSize * pageSize

/-! ## Calls -/

/-- The access of the handle, and of the section that is made for it. -/
def Open.granted (req : Open) : Access :=
  { accessFor req.flags ⟨true, false, false⟩ with read := true }

namespace Machine

variable (m : Machine)

def findFileSection (node offset length : Nat) : Option Nat :=
  (List.range maxSections).find? fun slot =>
    (m.sections slot).any fun obj =>
      obj.node = some node && obj.offset = offset && obj.length = length

def freeSection : Option Nat :=
  (List.range maxSections).find? fun slot => (m.sections slot).isNone

def setSection (slot : Nat) (obj : Option Object) : Machine :=
  { m with sections := update m.sections slot obj }

def retain (slot : Nat) : Machine :=
  m.setSection slot ((m.sections slot).map fun obj =>
    { obj with refs := obj.refs + 1 })

def release (slot : Nat) : Machine :=
  m.setSection slot ((m.sections slot).bind fun obj =>
    if obj.refs - 1 = 0 then none else some { obj with refs := obj.refs - 1 })

/-- The length that is meant: zero asks for the whole file. -/
def sizeOf (req : Open) : Nat :=
  if req.length ≠ 0 then req.length else (m.files req.node).contents.length

/-- The file is read into a section of its own. -/
def newSection (req : Open) (size : Nat) : Object where
  node := if (m.files req.node).volume then some req.node else none
  offset := req.offset
  length := size
  access := req.granted
  memory := fill (m.files req.node) req.works req.offset size size 0
    (List.replicate (alignUp size) 0)
  refs := 0

def acquireFileRangeSection (req : Open) : Option (Nat × Machine) :=
  let file := m.files req.node
  let size := m.sizeOf req
  if file.contents.length < req.offset ∨ file.contents.length - req.offset < size then none
  else if size = 0 ∨ maxSectionBytes < size then none
  else
    match if file.volume then m.findFileSection req.node req.offset size else none with
    | some slot => some (slot, m)
    | none =>
      if req.memory = false then none
      else
        m.freeSection.map fun slot =>
          (slot, m.setSection slot (some (m.newSection req size)))

/-- `open_range_section_handle`. -/
def openRangeSection (req : Open) : Option Nat × Machine :=
  if req.flags.write then (none, m)
  else
    match m.acquireFileRangeSection req with
    | none => (none, m)
    | some (slot, t) =>
      match req.handle with
      | none => (none, t.release slot)
      | some handle =>
        let retained := t.retain slot
        (some handle, { retained with
          handles := update retained.handles handle (some ⟨slot, req.granted⟩) })

/-- `map_view_base_handle`; `room` tells whether the address space takes the view. -/
def mapView (handle : Nat) (flags : Access) (room : Bool) (view : Nat) : MapResult × Machine :=
  match m.handles handle with
  | none => (.EBADF, m)
  | some ⟨slot, granted⟩ =>
    match m.sections slot with
    | none => (.EBADF, m)
    | some obj =>
      let requested := accessFor flags obj.access
      if requested.within granted = false then (.EACCES, m)
      else if requested.within obj.access = false then (.EACCES, m)
      else if requested.execute && requested.write then (.EINVAL, m)
      else if room = false then (.ENOMEM, m)
      else
        let retained := m.retain slot
        (.mapped, { retained with views := update retained.views view (some slot) })

def closeHandle (handle : Nat) : Machine :=
  match m.handles handle with
  | none => m
  | some ⟨slot, _⟩ =>
    release { m with handles := update m.handles handle none } slot

/-- The view gives its reference up.  The call may put this off until other cores have flushed
their TLBs, so the step can come later than the call. -/
def unmapView (view : Nat) : Machine :=
  match m.views view with
  | none => m
  | some slot => release { m with views := update m.views view none } slot

end Machine

inductive Step
  | change (node : Nat) (contents : List UInt8)
  | openRange (req : Open)
  | map (handle : Nat) (flags : Access) (room : Bool) (view : Nat)
  | close (handle : Nat)
  | unmap (view : Nat)

/-- Writing and truncating a file is any change of its contents. -/
def Machine.step (m : Machine) : Step → Machine
  | .change node contents =>
    { m with
      files := update m.files node ⟨(m.files node).volume, contents⟩ }
  | .openRange req => (m.openRangeSection req).2
  | .map handle flags room view => (m.mapView handle flags room view).2
  | .close handle => m.closeHandle handle
  | .unmap view => m.unmapView view

def run (files : Nat → File) (steps : List Step) : Machine := steps.foldl Machine.step { files }

/-! ## When a section holds its file -/

/-- The bytes of a range of a file, with zeros to the end of the last page. -/
def pagesOf (contents : List UInt8) (offset size : Nat) : List UInt8 :=
  slice contents offset size ++ List.replicate (alignUp size - size) 0

/-- No read of the volume fails, and a section that is found was opened for the same. -/
def Open.Fits (m : Machine) (req : Open) : Prop :=
  (∀ filled, req.works filled = true) ∧
    ∀ slot obj, (m.files req.node).volume = true →
      m.findFileSection req.node req.offset (m.sizeOf req) = some slot →
      m.sections slot = some obj → obj.access = req.granted

/-- A file keeps the bytes that a section of it holds. -/
def Step.Fits (m : Machine) : Step → Prop
  | .change node contents => ∀ slot obj, m.sections slot = some obj →
      obj.node = some node →
        slice contents obj.offset obj.length =
          slice (m.files node).contents obj.offset obj.length
  | .openRange req => req.Fits m
  | _ => True

def Fitting : Machine → List Step → Prop
  | _, [] => True
  | m, step :: rest => step.Fits m ∧ Fitting (m.step step) rest

/-! ## Filling a section -/

theorem slice_append (bytes : List UInt8) (offset first second : Nat) :
    slice bytes offset first ++ slice bytes (offset + first) second =
      slice bytes offset (first + second) := by
  rw [slice, slice, slice, take_add, drop_drop]

theorem length_slice {bytes : List UInt8} {offset n : Nat} (ins : offset + n ≤ bytes.length) :
    (slice bytes offset n).length = n := by
  simp only [slice, length_take, length_drop]
  omega

theorem vfsRead_works {file : File} {offset n : Nat} (pos : 0 < n)
    (ins : offset + n ≤ file.contents.length) :
    vfsRead file true offset n = slice file.contents offset n := by
  have whole : min (file.contents.length - offset) n = n := by omega
  rw [vfsRead, if_neg (by omega), if_neg (by simp), whole]

/-- A read that fills the memory from where it is filled so far. -/
theorem patch_zeros (front bytes : List UInt8) (zeros : Nat) :
    patch (front ++ List.replicate zeros 0) front.length bytes =
      front ++ bytes ++ List.replicate (zeros - bytes.length) 0 := by
  rw [patch, take_left' rfl, ← drop_drop, drop_left' rfl, drop_replicate]

theorem fill_works {file : File} {works : Nat → Bool} (all : ∀ filled, works filled = true)
    {offset size total : Nat} (ins : offset + size ≤ file.contents.length) (room : size ≤ total)
    (rounds filled : Nat) (enough : size ≤ filled + rounds) (inSize : filled ≤ size)
    (whole : filled = size ∨ filled % pageSize = 0) : fill file works offset size rounds filled
        (slice file.contents offset filled ++ List.replicate (total - filled) 0) =
      slice file.contents offset size ++ List.replicate (total - size) 0 := by
  induction rounds generalizing filled with
  | zero =>
    obtain rfl : filled = size := by omega
    rfl
  | succ rounds ih =>
    rw [fill]
    by_cases more : filled < size
    · have aligned : filled % pageSize = 0 := whole.resolve_left (by omega)
      have pages := Nat.div_mul_cancel (Nat.dvd_of_mod_eq_zero aligned)
      rw [if_pos more, all filled, pages]
      dsimp only
      generalize chunkIs : min pageSize (size - filled) = chunk
      have pos : 0 < chunk := by rw [← chunkIs]; simp [pageSize]; omega
      have small : filled + chunk ≤ size := by omega
      have got : vfsRead file true (offset + filled) chunk =
          slice file.contents (offset + filled) chunk := vfsRead_works pos (by omega)
      have length : (slice file.contents (offset + filled) chunk).length = chunk :=
        length_slice (by omega)
      have front : (slice file.contents offset filled).length = filled := length_slice (by omega)
      have written := patch_zeros (slice file.contents offset filled)
        (slice file.contents (offset + filled) chunk) (total - filled)
      rw [front, length] at written
      rw [got, if_neg (ne_nil_of_length_pos (by omega)), length, written, slice_append,
        show total - filled - chunk = total - (filled + chunk) by omega]
      refine ih (filled + chunk) (by omega) small ?_
      by_cases last : filled + chunk = size
      · exact .inl last
      right
      have full : chunk = pageSize := by omega
      rw [full, Nat.add_mod_right, aligned]
    · obtain rfl : filled = size := by omega
      rw [if_neg more]

theorem le_alignUp (size : Nat) : size ≤ alignUp size := by
  unfold alignUp pageSize
  omega

variable {req : Open}

theorem newSection_memory (m : Machine) {size : Nat} (works : ∀ filled, req.works filled = true)
    (ins : req.offset + size ≤ (m.files req.node).contents.length) :
    (m.newSection req size).memory = pagesOf (m.files req.node).contents req.offset size :=
  fill_works works ins (le_alignUp size) size 0 (by omega) (Nat.zero_le _) (.inr rfl)

/-! ## The invariant -/

/-- Every section that can be found holds what its file has now. -/
def Machine.Holds (m : Machine) : Prop :=
  ∀ slot obj node, m.sections slot = some obj → obj.node = some node →
    obj.memory = pagesOf (m.files node).contents obj.offset obj.length

namespace Machine

variable {m : Machine}

theorem Holds.setSection (holds : m.Holds) (slot : Nat) {new : Option Object}
    (fresh : ∀ obj node, new = some obj → obj.node = some node →
      obj.memory = pagesOf (m.files node).contents obj.offset obj.length) :
    (m.setSection slot new).Holds := by
  intro o
  by_cases same : o = slot
  · simpa [Machine.setSection, same] using fresh
  · simpa [Machine.setSection, same] using holds o

theorem Holds.retain (holds : m.Holds) (slot : Nat) : (m.retain slot).Holds := by
  refine holds.setSection slot fun obj node found kept => ?_
  obtain ⟨old, was, rfl⟩ := Option.map_eq_some_iff.mp found
  exact holds slot old node was kept

theorem Holds.release (holds : m.Holds) (slot : Nat) : (m.release slot).Holds := by
  refine holds.setSection slot fun obj node found kept => ?_
  obtain ⟨old, was, more⟩ := Option.bind_eq_some_iff.mp found
  split at more <;> cases more
  exact holds slot old node was kept

theorem findFileSection_some {node offset length slot : Nat}
    (found : m.findFileSection node offset length = some slot) :
    ∃ obj, m.sections slot = some obj ∧ obj.node = some node ∧
      obj.offset = offset ∧ obj.length = length := by
  have matched := List.find?_some found
  cases is : m.sections slot with
  | none => simp [is] at matched
  | some obj =>
    simp only [is, Option.any_some, Bool.and_eq_true, decide_eq_true_eq] at matched
    exact ⟨obj, rfl, matched.1.1, matched.1.2, matched.2⟩

/-- What a section that was acquired for a request holds. -/
def Gives (m : Machine) (req : Open) (slot : Nat) (t : Machine) : Prop :=
  t.Holds ∧ ∃ obj, t.sections slot = some obj ∧ obj.access = req.granted ∧
    obj.memory = pagesOf (m.files req.node).contents req.offset
      (m.sizeOf req)

theorem Holds.acquire (holds : m.Holds) (fits : req.Fits m) {slot : Nat} {t : Machine}
    (acquired : m.acquireFileRangeSection req = some (slot, t)) : m.Gives req slot t := by
  unfold acquireFileRangeSection at acquired
  dsimp only at acquired
  split at acquired
  · cases acquired
  next ins =>
    split at acquired
    · cases acquired
    split at acquired
    · next found cached =>
      cases acquired
      by_cases volume : (m.files req.node).volume = true
      · rw [if_pos volume] at cached
        obtain ⟨obj, is, node, offset, length⟩ := findFileSection_some cached
        refine ⟨holds, obj, is, fits.2 slot obj volume cached is, ?_⟩
        rw [holds slot obj req.node is node, offset, length]
      · rw [if_neg volume] at cached
        cases cached
    · split at acquired
      · cases acquired
      obtain ⟨free, found, same⟩ := Option.map_eq_some_iff.mp acquired
      cases same
      have memory : (m.newSection req (m.sizeOf req)).memory = _ :=
        newSection_memory m fits.1 (by omega)
      refine ⟨holds.setSection slot fun obj node made kept => ?_, _, ?_, rfl, memory⟩
      · cases made
        simp only [newSection] at kept
        split at kept
        · cases kept
          exact memory
        · cases kept
      · simp [Machine.setSection]

/-- Both ways out of the call keep the invariant, and a handle leads to such a section. -/
theorem Holds.openRange (holds : m.Holds) (fits : req.Fits m) : (m.openRangeSection req).2.Holds ∧
      ∀ handle, (m.openRangeSection req).1 = some handle → req.flags.write = false ∧
        ∃ slot, (m.openRangeSection req).2.handles handle = some ⟨slot, req.granted⟩ ∧
          m.Gives req slot (m.openRangeSection req).2 := by
  unfold openRangeSection
  split
  · exact ⟨holds, nofun⟩
  next readOnly =>
    split
    · exact ⟨holds, nofun⟩
    next slot t acquired =>
      obtain ⟨kept, obj, is, access, memory⟩ := holds.acquire fits acquired
      split
      · exact ⟨kept.release slot, nofun⟩
      next handle free =>
        refine ⟨kept.retain slot, fun o same => ?_⟩
        cases same
        refine ⟨by simpa using readOnly, slot, by simp, kept.retain slot,
          { obj with refs := obj.refs + 1 }, ?_, access, memory⟩
        simp [Machine.retain, Machine.setSection, is]

theorem Holds.step (holds : m.Holds) {step : Step} (fits : step.Fits m) : (m.step step).Holds := by
  cases step with
  | change node contents =>
    intro slot obj source found kept
    rw [holds slot obj source found kept, pagesOf, pagesOf]
    by_cases same : source = node
    · subst same
      rw [← fits slot obj found kept]
      simp [Machine.step]
    · simp [Machine.step, same]
  | openRange req => exact (holds.openRange fits).1
  | map handle flags room view =>
    unfold Machine.step mapView
    dsimp only
    split
    · exact holds
    split
    · exact holds
    split
    · exact holds
    split
    · exact holds
    split
    · exact holds
    split
    · exact holds
    · exact holds.retain _
  | close handle =>
    unfold Machine.step closeHandle
    dsimp only
    split
    · exact holds
    · exact Holds.release (fun slot obj node => holds slot obj node) _
  | unmap view =>
    unfold Machine.step unmapView
    dsimp only
    split
    · exact holds
    · exact Holds.release (fun slot obj node => holds slot obj node) _

theorem Holds.run (holds : m.Holds) {steps : List Step} (fitting : Fitting m steps) :
    (steps.foldl Machine.step m).Holds := by
  induction steps generalizing m with
  | nil => exact holds
  | cons step rest ih => exact ih (holds.step fitting.1) fitting.2

end Machine

theorem within_granted : (accessFor req.flags req.granted).within req.granted = true := by
  unfold Open.granted accessFor
  split <;> simp_all [Access.within]

/-- When no file changes under a section that is held, and a section is found only by one
who opens it for the same access, a section that is opened holds the bytes that its file
has, and it can be mapped for what it was opened for. -/
theorem section_holds_file {files : Nat → File} {steps : List Step} {request : Open} {handle : Nat}
    (fitting : Fitting { files } steps) (fits : request.Fits (run files steps))
    (opened : ((run files steps).openRangeSection request).1 = some handle) :
    ∃ slot object, ((run files steps).openRangeSection request).2.handles handle =
        some ⟨slot, request.granted⟩ ∧
      ((run files steps).openRangeSection request).2.sections slot = some object ∧
      object.memory = pagesOf ((run files steps).files request.node).contents request.offset
        ((run files steps).sizeOf request) ∧
      ∀ room view, (((run files steps).openRangeSection request).2.mapView handle request.flags room
        view).1 = if room then .mapped else .ENOMEM := by
  have start : Machine.Holds { files } := nofun
  have holds : (run files steps).Holds := start.run fitting
  obtain ⟨readOnly, slot, given, -, object, is, access, memory⟩ :=
    (holds.openRange fits).2 handle opened
  refine ⟨slot, object, given, is, memory, fun room view => ?_⟩
  have asked := @within_granted request
  have noWrite : (accessFor request.flags request.granted).write = false := by
    unfold accessFor Open.granted accessFor
    split <;> simp_all
  simp only [Machine.mapView, given, is, access]
  rw [if_neg (by simp [asked]), if_neg (by simp [asked]), if_neg (by simp [noWrite])]
  cases room <;> rfl

/-! ## Two processes and one file -/

def reading : Access := ⟨true, false, false⟩
def running : Access := ⟨true, false, true⟩

def sampleFiles : Nat → File := fun _ => ⟨true, [1, 2, 3, 4]⟩

def opens (flags : Access) (handle : Nat) : Open :=
    ⟨0, 1, 2, flags, true, fun _ => true, some handle⟩

/-- The bytes that the section of a handle starts with. -/
def Machine.firstBytes (m : Machine) (handle : Nat) : Option (List UInt8) :=
  (m.handles handle).bind fun held => (m.sections held.slot).map fun obj =>
    obj.memory.take obj.length

/-- One process has opened the range to run it. -/
def shared : Machine := run sampleFiles [.openRange (opens running 0)]

theorem section_holds_file_second : ∃ slot object,
    (shared.openRangeSection (opens running 1)).2.handles 1 = some ⟨slot, running⟩ ∧
      (shared.openRangeSection (opens running 1)).2.sections slot = some object ∧
      object.memory = pagesOf [1, 2, 3, 4] 1 2 := by
  have first : (opens running 0).Fits { files := sampleFiles } :=
    ⟨fun _ => rfl, fun _ _ _ _ is => by cases is⟩
  have place : shared.findFileSection 0 1 2 = some 0 := by decide +kernel
  have access : (shared.sections 0).map Object.access = some running := by decide +kernel
  have second : (opens running 1).Fits shared := by
    refine ⟨fun _ => rfl, fun slot object _ found is => ?_⟩
    obtain rfl : 0 = slot := Option.some.inj (place.symm.trans found)
    rw [is] at access
    exact Option.some.inj access
  obtain ⟨slot, object, given, is, memory, -⟩ :=
    @section_holds_file sampleFiles [.openRange (opens running 0)] (opens running 1) 1
      ⟨first, trivial⟩ second (by decide +kernel)
  exact ⟨slot, object, given, is, memory⟩

/-- The second process gets the bytes the file had before it was changed, and one that asks
to run what another only reads is refused. -/
theorem section_keeps_first_opener :
    (run sampleFiles [.openRange (opens reading 0), .change 0 [5, 6, 7, 8],
      .openRange (opens reading 1)]).firstBytes 1 = some [2, 3] ∧
      slice [5, 6, 7, 8] 1 2 = [6, 7] ∧
      ((run sampleFiles [.openRange (opens reading 0),
        .openRange (opens running 1)]).mapView 1 running
        true 0).1 = .EACCES := by
  decide +kernel

end SavanXP.FileSections
