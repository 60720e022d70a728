import Mathlib

/-!
# TLB shootdown

A view of a section is unmapped while other cores may still hold translations to its
pages.  Nobody waits for them: the reference of the view is put off until the cores that
had the address space loaded have reloaded CR3 since.  A core's TLB is the list of all
translations it may have loaded since it last dropped them.  Kernel entries run one at a
time, but the other cores go on touching memory while they do.  Shootdowns are numbered
without end.  References are counted in 32 bits: `wrap` is what is left of a count that grew
by one, and with `id` for it counts have no end either.
-/

namespace SavanXP.Shootdown

open List Function

/-- A physical page of a section: the section and the index of the page in it. -/
abbrev Page := Nat × Nat

/-- A view in an address space; base and size are in pages. -/
structure View where
  space : Nat
  base : Nat
  size : Nat
  object : Nat
  deriving DecidableEq

def View.overlaps (view : View) (space base size : Nat) : Bool :=
  view.space = space && base < view.base + view.size && view.base < base + size

/-- `SectionObject`, as far as its lifetime goes.  Sections are numbered in the order they are
made, and a number is never given again. -/
structure Object (cores : Nat) where
  live : Bool := false
  pageCount : Nat := 0
  refs : Nat := 0
  deferredRefs : Nat := 0
  deferredCpus : Fin cores → Bool := fun _ => false
  deferredSequence : Nat := 0

/-- One more reference waits, for these cores too and for the newer shootdown. -/
def Object.defer {cores : Nat} (wrap : Nat → Nat) (object : Object cores) (cpus : Fin cores → Bool)
    (sequence : Nat) : Object cores :=
  { object with
    deferredRefs := wrap (object.deferredRefs + 1)
    deferredCpus := fun core => object.deferredCpus core || cpus core
    deferredSequence := sequence }

/-- `handles` counts the references that handles hold. -/
structure Machine (cores : Nat) where
  tables : Nat → Nat → Option Page := fun _ _ => none
  views : List View := []
  objects : Nat → Object cores := fun _ => {}
  handles : Nat → Nat := fun _ => 0
  made : Nat := 0
  deferredViews : List Nat := []
  cr3 : Fin cores → Nat := fun _ => 0
  loaded : Fin cores → Nat := fun _ => 0
  tlb : Fin cores → List (Nat × Page) := fun _ => []
  stale : Fin cores → Bool := fun _ => false
  requested : Fin cores → Nat := fun _ => 0
  done : Fin cores → Nat := fun _ => 0
  sequence : Nat := 0

section

variable {cores : Nat}

namespace Machine

/-! ## Cores -/

variable (m : Machine cores)

/-- A core in user mode touches a page: if it is mapped, the translation may be loaded. -/
def access (touch : Fin cores × Nat) : Machine cores :=
  match m.tables (m.cr3 touch.1) touch.2 with
  | none => m
  | some page =>
    { m with
      tlb := update m.tlb touch.1 ((touch.2, page) :: m.tlb touch.1) }

def accesses (touches : List (Fin cores × Nat)) : Machine cores :=
  touches.foldl access m

/-- Reloading CR3 drops every user translation. -/
def loadPageTableRoot (core : Fin cores) (space : Nat) : Machine cores :=
  { m with
    cr3 := update m.cr3 core space
    tlb := update m.tlb core []
    done := update m.done core (m.requested core) }

def loadAddressSpace (core : Fin cores) (space : Nat) : Machine cores :=
  let noted := { m with loaded := update m.loaded core space }
  if m.cr3 core = space then noted else noted.loadPageTableRoot core space

def syncUserTlb (core : Fin cores) : Machine cores :=
  if m.done core = m.requested core then m
  else m.loadPageTableRoot core (m.cr3 core)

/-! ## Pages -/

def setTable (space a : Nat) (e : Option Page) : Machine cores :=
  { m with
    tables := update m.tables space
      (update (m.tables space) a e) }

/-- The TLBs after this core has invalidated a page, which it does if it holds the space. -/
def invalidatePage (self : Fin cores) (space a : Nat) : Fin cores → List (Nat × Page) :=
  if m.cr3 self = space then
    update m.tlb self ((m.tlb self).filter fun e => e.1 ≠ a)
  else m.tlb

def mapPage (self : Fin cores) (space a : Nat) (page : Page) : Machine cores :=
  { m.setTable space a (some page) with tlb := m.invalidatePage self space a }

def noteUserUnmap (self : Fin cores) (space a : Nat) : Machine cores :=
  { m with
    tlb := m.invalidatePage self space a
    stale := fun core => m.stale core || (core ≠ self && m.loaded core = space) }

def unmapPage (self : Fin cores) (space a : Nat) : Machine cores :=
  if (m.tables space a).isNone then m
  else (m.setTable space a none).noteUserUnmap self space a

/-! ## References -/

def setObject (object : Nat) (t : Object cores) : Machine cores :=
  { m with objects := update m.objects object t }

/-- The last reference destroys the section and frees its pages. -/
def release (object : Nat) : Machine cores :=
  let held := m.objects object
  m.setObject object
    { held with refs := held.refs - 1, live := held.live && held.refs - 1 ≠ 0 }

def retain (wrap : Nat → Nat) (object : Nat) : Machine cores :=
  let held := m.objects object
  m.setObject object { held with refs := wrap (held.refs + 1) }

def releaseTimes (m : Machine cores) (object : Nat) : Nat → Machine cores
  | 0 => m
  | refs + 1 => (m.release object).releaseTimes object refs

def finishShootdown : Machine cores :=
  { m with
    stale := fun _ => false
    sequence := m.sequence + 1
    requested := fun core =>
      if m.stale core then m.sequence + 1 else m.requested core }

def anyStale : Bool := (List.finRange cores).any m.stale

def releaseAfterShootdown (wrap : Nat → Nat) (object : Nat) : Machine cores :=
  if m.anyStale = false then m.release object
  else
    let held := m.objects object
    let queued :=
      if held.deferredRefs = 0 then object :: m.deferredViews else m.deferredViews
    { m.finishShootdown with deferredViews := queued }.setObject object
      (held.defer wrap m.stale (m.sequence + 1))

def flushedSince (cpus : Fin cores → Bool) (sequence : Nat) : Bool :=
  (finRange cores).all fun core => !(cpus core && m.done core < sequence)

/-- One section of the list in `reclaim_deferred_views`, and whether it stays there. -/
def reclaimOne (object : Nat) : Machine cores × Bool :=
  let held := m.objects object
  if m.flushedSince held.deferredCpus held.deferredSequence = false then (m, true)
  else
    ((m.setObject object
        { held with
          deferredRefs := 0, deferredCpus := fun _ => false, deferredSequence := 0 }).releaseTimes
      object held.deferredRefs, false)

def reclaimFrom (m : Machine cores) : List Nat → Machine cores × List Nat
  | [] => (m, [])
  | object :: rest =>
    let (t, stays) := m.reclaimOne object
    let (last, kept) := t.reclaimFrom rest
    (last, if stays then object :: kept else kept)

def reclaimDeferredViews : Machine cores :=
  let (t, kept) := m.reclaimFrom m.deferredViews
  { t with deferredViews := kept }

/-! ## Views -/

def userRangeIsFree (space base size : Nat) : Bool :=
  ((range size).all fun i => (m.tables space (base + i)).isNone) &&
    m.views.all fun view => !view.overlaps space base size

/-- The first pages of a view, with what other cores touch before each. -/
def unmapPages (m : Machine cores) (self : Fin cores) (space base : Nat)
    (during : Nat → List (Fin cores × Nat)) : Nat → Machine cores
  | 0 => m
  | n + 1 =>
    ((m.unmapPages self space base during n).accesses (during n)).unmapPage self space
      (base + n)

/-- As many pages of a view as can be mapped, and their number. -/
def mapPages (m : Machine cores) (self : Fin cores) (view : View) (memory : Nat → Bool)
    (during : Nat → List (Fin cores × Nat)) : Nat → Machine cores × Nat
  | 0 => (m, 0)
  | n + 1 =>
    let old := m.mapPages self view memory during n
    if old.2 = n && memory n then
      ((old.1.accesses (during n)).mapPage self view.space (view.base + n)
        (view.object, n), n + 1)
    else old

variable (wrap : Nat → Nat)

/-- The pages of a view are mapped, or unmapped again when one of them cannot be. -/
def placeView (self : Fin cores) (view : View) (memory : Nat → Bool)
    (during undoing : Nat → List (Fin cores × Nat)) : Machine cores :=
  let mapped := m.mapPages self view memory during view.size
  if mapped.2 = view.size then
    { mapped.1.retain wrap view.object with views := view :: mapped.1.views }
  else
    ((mapped.1.unmapPages self view.space view.base undoing mapped.2).retain
      wrap view.object).releaseAfterShootdown wrap view.object

/-- A request that ends before anything is mapped; `room` tells whether a view is free. -/
abbrev refusesView (space base object : Nat) (room : Bool) : Prop :=
  m.handles object = 0 ∨ (m.objects object).live = false ∨ (m.objects object).pageCount = 0 ∨
    m.userRangeIsFree space base (m.objects object).pageCount = false ∨ room = false

/-- `map_section_view` of a section that the caller has a handle to, at a base that was asked
for or chosen; `memory` tells for which pages there are page tables. -/
def mapSectionView (self : Fin cores) (space base object : Nat)
    (memory : Nat → Bool) (room : Bool) (during undoing : Nat → List (Fin cores × Nat)) :
    Machine cores :=
  if m.refusesView space base object room then m
  else
    m.placeView wrap self ⟨space, base, (m.objects object).pageCount, object⟩ memory during undoing

def removeView (self : Fin cores) (view : View)
    (during : Nat → List (Fin cores × Nat)) : Machine cores :=
  let unmapped :=
    (m.unmapPages self view.space view.base during view.size).reclaimDeferredViews
  { unmapped.releaseAfterShootdown wrap view.object with views := unmapped.views.erase view }

def unmapSectionView (self : Fin cores) (space base : Nat)
    (during : Nat → List (Fin cores × Nat)) : Machine cores :=
  match m.views.find? fun view => view.space = space && view.base = base with
  | none => m
  | some view => m.removeView wrap self view during

/-! ## Handles -/

/-- A section is made, with a handle to it. -/
def create (pageCount : Nat) : Machine cores :=
  { m.setObject m.made { live := true, pageCount, refs := 1 } with
    made := m.made + 1
    handles := update m.handles m.made 1 }

def duplicate (object : Nat) : Machine cores :=
  if m.handles object = 0 then m
  else
    { m.retain wrap object with
      handles := update m.handles object (m.handles object + 1) }

def close (object : Nat) : Machine cores :=
  if m.handles object = 0 then m
  else
    { m with
      handles := update m.handles object (m.handles object - 1) }.release object

end Machine

inductive Step (cores : Nat)
  | access (core : Fin cores) (a : Nat)
  | load (core : Fin cores) (space : Nat)
  | sync (core : Fin cores)
  | map (self : Fin cores) (space base object : Nat) (memory : Nat → Bool) (room : Bool)
      (during undoing : Nat → List (Fin cores × Nat))
  | unmap (self : Fin cores) (space base : Nat) (during : Nat → List (Fin cores × Nat))
  | reclaim
  | create (pageCount : Nat)
  | duplicate (object : Nat)
  | close (object : Nat)

def Machine.step (wrap : Nat → Nat) (m : Machine cores) : Step cores → Machine cores
  | .access core a => m.access (core, a)
  | .load core space => m.loadAddressSpace core space
  | .sync core => m.syncUserTlb core
  | .map self space base object memory room during undoing =>
    m.mapSectionView wrap self space base object memory room during undoing
  | .unmap self space base during => m.unmapSectionView wrap self space base during
  | .reclaim => m.reclaimDeferredViews
  | .create pageCount => m.create pageCount
  | .duplicate object => m.duplicate wrap object
  | .close object => m.close object

def run (wrap : Nat → Nat) (steps : List (Step cores)) : Machine cores :=
  steps.foldl (Machine.step wrap) {}

/-- No count of a section is lost when it grows by one. -/
def Machine.Keeps (wrap : Nat → Nat) (m : Machine cores) : Prop :=
  ∀ object, ∀ count ≤ (m.objects object).refs + 1, wrap count = count

/-- No step of the run begins with a count that the next reference would lose. -/
def Machine.CountsFit (wrap : Nat → Nat) : Machine cores → List (Step cores) → Prop
  | _, [] => True
  | m, step :: rest => m.Keeps wrap ∧ CountsFit wrap (m.step wrap step) rest

theorem Machine.countsFit_id (m : Machine cores) (steps : List (Step cores)) :
    m.CountsFit id steps := by
  induction steps generalizing m with
  | nil => trivial
  | cons step rest ih => exact ⟨fun _ _ _ => rfl, ih _⟩

/-- The section after its references that waited have been given up. -/
def Object.settled (held : Object cores) : Object cores :=
  { held with
    refs := held.refs - held.deferredRefs
    live := held.live && (held.deferredRefs = 0 || held.refs - held.deferredRefs ≠ 0)
    deferredRefs := 0
    deferredCpus := fun _ => false
    deferredSequence := 0 }

def Machine.flushedFor (m : Machine cores) (object : Nat) : Bool :=
  m.flushedSince (m.objects object).deferredCpus (m.objects object).deferredSequence

/-! ## The invariant -/

def View.Covers (view : View) (space a : Nat) : Prop :=
  view.space = space ∧ view.base ≤ a ∧ a < view.base + view.size

namespace Machine

variable {m : Machine cores}

/-- The core may hold translations to pages of the section that are no longer mapped: the
section waits for it, or it is noted for the shootdown of the view at hand. -/
def Waits (m : Machine cores) (busy : Option View) (core : Fin cores) (object : Nat) : Prop :=
  (m.objects object).deferredRefs ≠ 0 ∧ (m.objects object).deferredCpus core = true ∧
      m.done core < (m.objects object).deferredSequence ∨
    ∃ view, busy = some view ∧ view.object = object ∧ m.stale core = true

/-- `busy` is the view that is being mapped or unmapped, `owed` a section with a reference that
is about to be given up. -/
structure Sound (m : Machine cores) (busy : Option View) (owed : Option Nat) : Prop where
  follows : ∀ core, m.cr3 core = m.loaded core
  numbered : ∀ core, m.done core ≤ m.requested core ∧
    m.requested core ≤ m.sequence
  deferred : ∀ object, (m.objects object).deferredSequence ≤ m.sequence
  apart : ∀ one ∈ m.views ++ busy.toList, ∀ o ∈ m.views ++ busy.toList,
    ∀ space a, one.Covers space a → o.Covers space a → one = o
  covered : ∀ space a page, m.tables space a = some page →
    ∃ view ∈ m.views ++ busy.toList, view.Covers space a ∧ view.object = page.1
  counted : ∀ object, (m.objects object).refs = m.handles object +
    m.views.countP (·.object = object) + (m.objects object).deferredRefs +
      if owed = some object then 1 else 0
  dead : ∀ object, (m.objects object).live = false → (m.objects object).refs = 0
  fresh : ∀ object, m.made ≤ object → (m.objects object).live = false
  quiet : busy = none → ∀ core, m.stale core = false
  reached : ∀ core e, e ∈ m.tlb core →
    m.tables (m.cr3 core) e.1 = some e.2 ∨ m.Waits busy core e.2.1

namespace Sound

variable {busy : Option View} {owed : Option Nat}

/-! ### Cores -/

section

variable (ok : m.Sound busy owed)
include ok

theorem access (touch : Fin cores × Nat) : (m.access touch).Sound busy owed := by
  unfold Machine.access
  split
  · exact ok
  · next page mapped =>
    refine { ok with reached := fun core e mem => ?_ }
    change e ∈ update m.tlb touch.1 _ core at mem
    by_cases same : core = touch.1
    · subst same
      rw [update_self] at mem
      rcases mem_cons.mp mem with rfl | mem
      · exact .inl mapped
      · exact ok.reached _ e mem
    · rw [update_of_ne same] at mem
      exact ok.reached core e mem

theorem accesses (touches : List (Fin cores × Nat)) : (m.accesses touches).Sound busy owed := by
  induction touches generalizing m with
  | nil => exact ok
  | cons touch rest ih => exact ih (ok.access touch)

/-- A core that reloads CR3 holds nothing, and has done what was asked of it. -/
theorem reload (core : Fin cores) (space : Nat) :
    ({ m with loaded := update m.loaded core space }.loadPageTableRoot core
      space).Sound busy owed := by
  refine { ok with follows := fun o => ?_, numbered := fun o => ?_, reached := fun o e mem => ?_ }
  · by_cases same : o = core
    · simp [loadPageTableRoot, same]
    · simpa [loadPageTableRoot, same] using ok.follows o
  · by_cases same : o = core
    · subst same
      simpa [loadPageTableRoot] using (ok.numbered o).2
    · simpa [loadPageTableRoot, same] using ok.numbered o
  · by_cases same : o = core
    · simp [loadPageTableRoot, same] at mem
    · simp only [loadPageTableRoot, update_of_ne same, Waits] at mem ⊢
      exact ok.reached o e mem

variable (core : Fin cores)

theorem noted : update m.loaded core (m.cr3 core) = m.loaded := by
  rw [ok.follows core, update_eq_self]

theorem loadAddressSpace (space : Nat) : (m.loadAddressSpace core space).Sound busy owed := by
  unfold Machine.loadAddressSpace
  split
  · next same =>
    subst same
    rw [ok.noted core]
    exact ok
  · exact ok.reload ..

theorem syncUserTlb : (m.syncUserTlb core).Sound busy owed := by
  unfold Machine.syncUserTlb
  split
  · exact ok
  · have reloaded := ok.reload core (m.cr3 core)
    rwa [ok.noted core] at reloaded

end

/-! ### Pages -/

variable {space a : Nat}

theorem mem_invalidatePage {self core : Fin cores} {e : Nat × Page}
    (mem : e ∈ m.invalidatePage self space a core) :
    e ∈ m.tlb core ∧ (core = self → m.cr3 self = space → e.1 ≠ a) := by
  unfold invalidatePage at mem
  split at mem
  · next here =>
    by_cases same : core = self
    · subst same
      simp only [update_self, mem_filter, decide_eq_true_eq] at mem
      exact ⟨mem.1, fun _ _ => mem.2⟩
    · rw [update_of_ne same] at mem
      exact ⟨mem, fun here => absurd here same⟩
  · next elsewhere => exact ⟨mem, fun _ here => absurd here elsewhere⟩

theorem setTable_self (m : Machine cores) (space a : Nat) (e : Option Page) :
    (m.setTable space a e).tables space a = e := by
  simp [setTable]

theorem setTable_other (m : Machine cores) {o elsewhere : Nat} (e : Option Page)
    (apart : ¬(o = space ∧ elsewhere = a)) :
    (m.setTable space a e).tables o elsewhere = m.tables o elsewhere := by
  unfold setTable
  by_cases same : o = space
  · subst same
    have differs : elsewhere ≠ a := fun here => apart ⟨rfl, here⟩
    simp [differs]
  · simp [same]

variable {view : View}

section

variable (ok : m.Sound (some view) owed)
include ok

/-- A page of the view at hand belongs to its section. -/
theorem owner {page : Page} (mapped : m.tables space a = some page) (covers : view.Covers space a) :
    page.1 = view.object := by
  obtain ⟨o, mem, also, object⟩ := ok.covered space a page mapped
  rw [← object, ok.apart o mem view (by simp) space a also covers]

theorem unmapPage (self : Fin cores) (covers : view.Covers view.space a) :
    (m.unmapPage self view.space a).Sound (some view) owed := by
  unfold Machine.unmapPage
  split
  · exact ok
  have fewer : ∀ space elsewhere page,
      (m.setTable view.space a none).tables space elsewhere = some page →
        m.tables space elsewhere = some page := by
    intro space elsewhere page mapped
    by_cases here : space = view.space ∧ elsewhere = a
    · rw [here.1, here.2, setTable_self] at mapped
      cases mapped
    · rwa [setTable_other _ _ here] at mapped
  refine { ok with
    covered := fun space elsewhere page mapped =>
      ok.covered space elsewhere page (fewer _ _ _ mapped)
    quiet := nofun
    reached := fun core e mem => ?_ }
  obtain ⟨was, dropped⟩ := mem_invalidatePage mem
  rcases ok.reached core e was with mapped | late | ⟨same, is, object, stale⟩
  · by_cases here : m.cr3 core = view.space ∧ e.1 = a
    · have object : view.object = e.2.1 :=
        (ok.owner (by rwa [here.1, here.2] at mapped) covers).symm
      refine .inr (.inr ⟨view, rfl, object, ?_⟩)
      -- this core has invalidated the page itself
      have o : core ≠ self := fun same => dropped same (same ▸ here.1) here.2
      have loaded : m.loaded core = view.space := (ok.follows core).symm.trans here.1
      simp [noteUserUnmap, setTable, o, loaded]
    · left
      rw [← mapped]
      exact setTable_other m none here
  · exact .inr (.inl late)
  · refine .inr (.inr ⟨same, is, object, ?_⟩)
    simp [noteUserUnmap, setTable, stale]

theorem mapPage (self : Fin cores) {i : Nat}
    (covers : view.Covers view.space a) (empty : m.tables view.space a = none) :
    (m.mapPage self view.space a (view.object, i)).Sound (some view) owed := by
  refine { ok with
    covered := fun space elsewhere page mapped => ?_, reached := fun core e mem => ?_ }
  · by_cases here : space = view.space ∧ elsewhere = a
    · obtain ⟨rfl, rfl⟩ := here
      have same : some (view.object, i) = some page := (setTable_self m _ _ _).symm.trans mapped
      cases same
      exact ⟨view, by simp, covers, rfl⟩
    · exact ok.covered space elsewhere page ((setTable_other m _ here).symm.trans mapped)
  · rcases ok.reached core e (mem_invalidatePage mem).1 with mapped | waits
    · left
      have elsewhere : ¬(m.cr3 core = view.space ∧ e.1 = a) := by
        rintro ⟨here, there⟩
        rw [here, there, empty] at mapped
        cases mapped
      exact (setTable_other m _ elsewhere).trans mapped
    · exact .inr waits

end

/-! ### References -/

variable {object : Nat} {wrap : Nat → Nat}

theorem made (ok : m.Sound busy owed) (live : (m.objects object).live = true) :
    object < m.made := by
  by_contra unmade
  rw [ok.fresh object (Nat.not_lt.mp unmade)] at live
  cases live

/-- What one section may become. -/
theorem setObject (ok : m.Sound busy owed) {t : Object cores} {owes : Option Nat}
    (sequence : t.deferredSequence ≤ m.sequence)
    (refs : t.refs = m.handles object + m.views.countP (·.object = object) +
      t.deferredRefs + if owes = some object then 1 else 0)
    (others : ∀ o ≠ object, (owes = some o ↔ owed = some o))
    (dead : t.live = false → t.refs = 0) (lives : t.live = true → object < m.made)
    (waits : ∀ core, (m.objects object).deferredRefs ≠ 0 →
      (m.objects object).deferredCpus core = true →
      m.done core < (m.objects object).deferredSequence →
        t.deferredRefs ≠ 0 ∧ t.deferredCpus core = true ∧
          m.done core < t.deferredSequence) : (m.setObject object t).Sound busy owes := by
  have each (property : Nat → Object cores → Prop) (here : property object t)
      (there : ∀ o ≠ object, property o (m.objects o)) :
      ∀ o, property o ((m.setObject object t).objects o) :=
    (forall_update_iff m.objects property).mpr ⟨here, there⟩
  refine { ok with
    deferred := each (fun _ held => held.deferredSequence ≤ m.sequence) sequence fun o _ =>
      ok.deferred o
    counted := fun o => ?_
    dead := each (fun _ held => held.live = false → held.refs = 0) dead fun o _ => ok.dead o
    fresh := each (fun o held => m.made ≤ o → held.live = false) (fun unmade => ?_) fun o _ =>
      ok.fresh o
    reached := fun core e mem => ?_ }
  · by_cases same : o = object
    · simp only [same, Machine.setObject, update_self]
      exact refs
    · simp only [Machine.setObject, update_of_ne same, others o same]
      exact ok.counted o
  · by_contra alive
    exact Nat.not_lt.mpr unmade (lives (by simpa using alive))
  · refine (ok.reached core e mem).imp_right (Or.imp_left ?_)
    rintro ⟨some, cpu, late⟩
    by_cases same : e.2.1 = object
    · simp only [same, Machine.setObject, update_self] at some cpu late ⊢
      exact waits core some cpu late
    · simp only [Machine.setObject, update_of_ne same]
      exact ⟨some, cpu, late⟩

theorem retain (ok : m.Sound busy none) (live : (m.objects object).live = true)
    (fits : wrap ((m.objects object).refs + 1) = (m.objects object).refs + 1) :
    (m.retain wrap object).Sound busy (some object) := by
  have counted := ok.counted object
  refine ok.setObject (ok.deferred object) ?_ (fun o differs => ?_) (fun dead => ?_)
    (fun _ => ok.made live) (fun _ some cpu late => ⟨some, cpu, late⟩)
  · simpa [fits] using counted
  · simp [Ne.symm differs]
  · rw [live] at dead
    cases dead

theorem release (ok : m.Sound busy (some object)) : (m.release object).Sound busy none := by
  have counted := ok.counted object
  rw [if_pos rfl] at counted
  refine ok.setObject (ok.deferred object) ?_ (fun o differs => ?_) (fun dead => ?_)
    (fun live => ?_) (fun _ some cpu late => ⟨some, cpu, late⟩)
  · simp only [counted, reduceCtorEq, if_false]
    omega
  · simp [Ne.symm differs]
  · simp only [Bool.and_eq_false_iff, decide_eq_false_iff_not, not_not] at dead
    rcases dead with dead | last
    · have none := ok.dead object dead
      omega
    · exact last
  · simp only [Bool.and_eq_true] at live
    exact ok.made live.1

theorem releaseTimes_eq (m : Machine cores) (object refs : Nat) :
    m.releaseTimes object refs = m.setObject object
      { m.objects object with
        refs := (m.objects object).refs - refs
        live := (m.objects object).live &&
          (refs = 0 || (m.objects object).refs - refs ≠ 0) } := by
  induction refs generalizing m with
  | zero => simp [releaseTimes, Machine.setObject]
  | succ refs ih =>
    have fewer : (m.objects object).refs - 1 - refs =
        (m.objects object).refs - (refs + 1) := by omega
    rw [releaseTimes, ih]
    simp only [Machine.release, Machine.setObject, update_self, update_idem, fewer]
    congr 3
    rw [Bool.and_assoc]
    congr 1
    rw [Bool.eq_iff_iff]
    simp only [Bool.and_eq_true, Bool.or_eq_true, decide_eq_true_eq]
    omega

theorem flushedFor_iff : m.flushedFor object = true ↔ ∀ core,
    (m.objects object).deferredCpus core = true →
      (m.objects object).deferredSequence ≤ m.done core := by
  simp only [flushedFor, flushedSince, all_eq_true, mem_finRange, true_implies, Bool.not_eq_true',
    Bool.and_eq_false_imp, decide_eq_false_iff_not, Nat.not_lt]

theorem reclaimOne_eq (m : Machine cores) (object : Nat) : m.reclaimOne object =
    if m.flushedFor object = false then (m, true)
    else (m.setObject object (m.objects object).settled, false) := by
  unfold reclaimOne
  dsimp only
  rw [releaseTimes_eq]
  simp only [Machine.setObject, update_self, update_idem]
  rfl

/-- The references that were put off are given up once every core has flushed. -/
theorem reclaimOne (ok : m.Sound busy none) (object : Nat) :
    (m.reclaimOne object).1.Sound busy none := by
  rw [reclaimOne_eq]
  split
  · exact ok
  next flushed =>
    have counted := ok.counted object
    simp only [reduceCtorEq, if_false] at counted
    refine ok.setObject (Nat.zero_le _) ?_ (fun _ _ => Iff.rfl) (fun dead => ?_) (fun live => ?_)
      (fun core _ cpu late => ?_)
    · simp only [Object.settled, reduceCtorEq, if_false]
      omega
    · simp only [Object.settled, Bool.and_eq_false_iff, Bool.or_eq_false_iff,
        decide_eq_false_iff_not,
        not_not] at dead ⊢
      rcases dead with dead | last
      · have none := ok.dead object dead
        omega
      · exact last.2
    · simp only [Object.settled, Bool.and_eq_true] at live
      exact ok.made live.1
    · rw [Bool.not_eq_false] at flushed
      exact absurd late (Nat.not_lt.mpr (flushedFor_iff.mp flushed core cpu))

theorem reclaimFrom (ok : m.Sound busy none) (queue : List Nat) :
    (m.reclaimFrom queue).1.Sound busy none := by
  induction queue generalizing m with
  | nil => exact ok
  | cons object rest ih => exact ih (ok.reclaimOne object)

theorem reclaimDeferredViews (ok : m.Sound busy none) :
    m.reclaimDeferredViews.Sound busy none := by
  have t := ok.reclaimFrom m.deferredViews
  exact { t with }

/-- The view is done with: it is on the list or nothing of it is mapped, and no core is noted. -/
theorem idle (ok : m.Sound (some view) owed)
    (kept : view ∈ m.views ∨ ∀ a, view.Covers view.space a → m.tables view.space a = none)
    (none_stale : ∀ core, m.stale core = false) : m.Sound none owed := by
  refine { ok with
    apart := fun one inOne o inOther => ?_
    covered := fun space a page mapped => ?_
    quiet := fun _ => none_stale
    reached := fun core e mem => ?_ }
  · simp only [Option.toList_none, append_nil] at inOne inOther
    exact ok.apart one (mem_append_left _ inOne) o (mem_append_left _ inOther)
  · obtain ⟨o, mem, covers, object⟩ := ok.covered space a page mapped
    rcases mem_append.mp mem with listed | busy
    · exact ⟨o, by simpa using listed, covers, object⟩
    obtain rfl : o = view := by simpa using busy
    rcases kept with listed | empty
    · exact ⟨o, by simpa using listed, covers, object⟩
    obtain ⟨rfl, ins⟩ := covers
    rw [empty a ⟨rfl, ins⟩] at mapped
    cases mapped
  · rcases ok.reached core e mem with mapped | late | ⟨_, _, _, stale⟩
    · exact .inl mapped
    · exact .inr (.inl late)
    · rw [none_stale core] at stale
      cases stale

/-- The cores that were noted are asked to flush, and the section waits for them. -/
theorem defer (ok : m.Sound (some view) (some view.object)) (queue : List Nat)
    (fits : wrap ((m.objects view.object).deferredRefs + 1) =
      (m.objects view.object).deferredRefs + 1) :
    ({ m.finishShootdown with deferredViews := queue }.setObject view.object
      ((m.objects view.object).defer wrap m.stale (m.sequence + 1))).Sound (some view)
        none := by
  have old : ∀ core, m.done core < m.sequence + 1 := fun core =>
    Nat.lt_succ_of_le (Nat.le_trans (ok.numbered core).1 (ok.numbered core).2)
  -- first the new number, with the cores still noted
  let asked : Machine cores :=
    { m.finishShootdown with deferredViews := queue, stale := m.stale }
  have numbered : asked.Sound (some view) (some view.object) := by
    refine { ok with
      numbered := fun core => ?_, quiet := nofun,
      deferred := fun o => Nat.le_succ_of_le (ok.deferred o) }
    have was := ok.numbered core
    simp only [asked, finishShootdown]
    split <;> omega
  have counted := ok.counted view.object
  rw [if_pos rfl] at counted
  have waiting : wrap ((m.objects view.object).deferredRefs + 1) ≠ 0 := by
    rw [fits]
    exact Nat.succ_ne_zero _
  have deferred : (asked.setObject view.object
      ((m.objects view.object).defer wrap m.stale (m.sequence + 1))).Sound (some view)
        none := by
    refine numbered.setObject (Nat.le_refl _) ?_ (fun o differs => ?_) (ok.dead view.object)
      ok.made (fun core _ cpu _ => ⟨waiting, ?_, old core⟩)
    · simp only [asked, Object.defer, fits, counted, finishShootdown, reduceCtorEq, if_false]
      omega
    · simp [Ne.symm differs]
    · simp only [Object.defer, show (m.objects view.object).deferredCpus core = true from cpu,
        Bool.true_or]
  refine { deferred with quiet := nofun, reached := fun core e mem => ?_ }
  rcases deferred.reached core e mem with mapped | late | ⟨same, is, object, stale⟩
  · exact .inl mapped
  · exact .inr (.inl late)
  cases is
  refine .inr (.inl ?_)
  rw [← object]
  simp only [Machine.setObject, update_self]
  refine ⟨waiting, ?_, old core⟩
  simp only [Object.defer, show m.stale core = true from stale, Bool.or_true]

theorem releaseAfterShootdown (ok : m.Sound (some view) (some view.object))
    (fits : wrap ((m.objects view.object).deferredRefs + 1) =
      (m.objects view.object).deferredRefs + 1)
    (empty : ∀ a, view.Covers view.space a → m.tables view.space a = none) :
    (m.releaseAfterShootdown wrap view.object).Sound none none := by
  unfold Machine.releaseAfterShootdown
  split
  · next quiet =>
    refine ok.release.idle (.inr empty) fun core => ?_
    have each := any_eq_false.mp quiet core (mem_finRange core)
    exact Bool.not_eq_true _ ▸ each
  · exact (ok.defer _ fits).idle (.inr empty) fun _ => rfl

end Sound

/-! ## Views -/

/-- Touching memory fills TLBs only. -/
theorem accesses_eq (m : Machine cores) (touches : List (Fin cores × Nat)) :
    ∃ tlb, m.accesses touches = { m with tlb } := by
  induction touches generalizing m with
  | nil => exact ⟨_, rfl⟩
  | cons touch rest ih =>
    have first : ∃ tlb, m.access touch = { m with tlb } := by
      unfold access
      split <;> exact ⟨_, rfl⟩
    obtain ⟨_, first⟩ := first
    obtain ⟨tlb, t⟩ := ih (m.access touch)
    refine ⟨tlb, ?_⟩
    change (m.access touch).accesses rest = _
    rw [t, first]

theorem accesses_tables (m : Machine cores) (touches : List (Fin cores × Nat)) :
    (m.accesses touches).tables = m.tables := by
  obtain ⟨_, same⟩ := m.accesses_eq touches
  rw [same]

theorem unmapPage_none (self : Fin cores) {space a o elsewhere : Nat}
    (gone : o = space ∧ elsewhere = a ∨ m.tables o elsewhere = none) :
    (m.unmapPage self space a).tables o elsewhere = none := by
  unfold unmapPage
  split
  · next none =>
    rcases gone with ⟨rfl, rfl⟩ | gone
    · simpa using none
    · exact gone
  · by_cases here : o = space ∧ elsewhere = a
    · rw [here.1, here.2]
      exact Sound.setTable_self ..
    · exact (Sound.setTable_other m none here).trans (gone.resolve_left here)

section Unmap

variable (self : Fin cores) (during : Nat → List (Fin cores × Nat))

theorem unmapPages_eq (m : Machine cores) (space base n : Nat) :
    ∃ tables tlb stale, m.unmapPages self space base during n = { m with tables, tlb, stale } := by
  induction n with
  | zero => exact ⟨_, _, _, rfl⟩
  | succ n ih =>
    obtain ⟨_, _, _, old⟩ := ih
    obtain ⟨_, touched⟩ := (m.unmapPages self space base during n).accesses_eq (during n)
    rw [unmapPages, touched, old]
    unfold unmapPage
    split <;> exact ⟨_, _, _, rfl⟩

variable {n : Nat} {view : View}

theorem unmapPages_none {space base o a : Nat}
    (gone : (∃ i, i < n ∧ o = space ∧ a = base + i) ∨ m.tables o a = none) :
    (m.unmapPages self space base during n).tables o a = none := by
  induction n with
  | zero =>
    rcases gone with ⟨i, below, -⟩ | gone
    · cases below
    · exact gone
  | succ n ih =>
    refine unmapPage_none self ?_
    rw [accesses_tables]
    rcases gone with ⟨i, below, here, there⟩ | gone
    · rcases Nat.lt_succ_iff_lt_or_eq.mp below with earlier | rfl
      · exact .inr (ih (.inl ⟨i, earlier, here, there⟩))
      · exact .inl ⟨here, there⟩
    · exact .inr (ih (.inr gone))

theorem Sound.unmapPages {owed : Option Nat}
    (ok : m.Sound (some view) owed) (ins : n ≤ view.size) :
    (m.unmapPages self view.space view.base during n).Sound (some view) owed := by
  induction n with
  | zero => exact ok
  | succ n ih =>
    have old := (ih (Nat.le_of_succ_le ins)).accesses (during n)
    exact old.unmapPage self ⟨rfl, Nat.le_add_right _ _, Nat.add_lt_add_left ins _⟩

theorem mapPages_frame (m : Machine cores) (self : Fin cores)
    (during : Nat → List (Fin cores × Nat)) (view : View) (memory : Nat → Bool) (n : Nat) :
    (m.mapPages self view memory during n).2 ≤ n ∧
      (∃ tables tlb, (m.mapPages self view memory during n).1 = { m with tables, tlb }) ∧
      ∀ i, (m.mapPages self view memory during n).2 ≤ i →
        (m.mapPages self view memory during n).1.tables view.space (view.base + i) =
          m.tables view.space (view.base + i) := by
  induction n with
  | zero => exact ⟨Nat.le_refl _, ⟨_, _, rfl⟩, fun _ _ => rfl⟩
  | succ n ih =>
    obtain ⟨few, ⟨_, _, frame⟩, same⟩ := ih
    rw [mapPages]
    split
    · next going =>
      obtain ⟨_, touched⟩ := (m.mapPages self view memory during n).1.accesses_eq (during n)
      refine ⟨Nat.le_refl _, ?_, fun i above => ?_⟩
      · rw [touched, frame]
        exact ⟨_, _, rfl⟩
      have elsewhere : ¬(view.space = view.space ∧ view.base + i = view.base + n) := by
        omega
      have old := same i (Nat.le_trans few (Nat.le_of_succ_le above))
      refine (Sound.setTable_other _ _ elsewhere).trans (Eq.trans ?_ old)
      rw [accesses_tables]
    · exact ⟨Nat.le_succ_of_le few, ⟨_, _, frame⟩, same⟩

theorem Sound.mapPages {owed : Option Nat} (ok : m.Sound (some view) owed)
    (memory : Nat → Bool) (empty : ∀ i < view.size, m.tables view.space (view.base + i) = none)
    (ins : n ≤ view.size) : (m.mapPages self view memory during n).1.Sound (some view) owed := by
  induction n with
  | zero => exact ok
  | succ n ih =>
    have old := ih (Nat.le_of_succ_le ins)
    rw [Machine.mapPages]
    split
    · next going =>
      refine (old.accesses (during n)).mapPage self
        ⟨rfl, Nat.le_add_right _ _, Nat.add_lt_add_left ins _⟩ ?_
      obtain ⟨few, -, same⟩ := m.mapPages_frame self during view memory n
      rw [accesses_tables, same n few]
      exact empty n ins
    · exact old

end Unmap

/-- The sections of the list that every core has flushed for are settled and leave it. -/
theorem reclaimFrom_eq (m : Machine cores) (queue : List Nat) : m.reclaimFrom queue =
    ({ m with objects := fun o =>
        if o ∈ queue ∧ m.flushedFor o = true then (m.objects o).settled else m.objects o },
      queue.filter fun o => !m.flushedFor o) := by
  induction queue generalizing m with
  | nil => simp [reclaimFrom]
  | cons object rest ih =>
    rw [reclaimFrom, Sound.reclaimOne_eq]
    cases flushed : m.flushedFor object with
    | false =>
      simp only [ih, if_true, filter_cons, flushed, Bool.not_false]
      congr 2
      funext o
      by_cases same : o = object
      · simp [same, flushed]
      · simp [same]
    | true =>
      have alike : ∀ o, (m.setObject object (m.objects object).settled).flushedFor o =
          m.flushedFor o := by
        intro o
        by_cases same : o = object
        · rw [same, flushed, Sound.flushedFor_iff]
          simp [setObject, Object.settled]
        · simp [flushedFor, setObject, same, flushedSince]
      simp only [ih, alike, filter_cons, flushed, Bool.not_true, reduceCtorEq, if_false]
      simp only [setObject]
      congr 2
      funext o
      by_cases same : o = object
      · simp [same, flushed, Object.settled]
      · simp [same]

namespace Sound

/-- A view that overlaps no other is taken up. -/
theorem begin (ok : m.Sound none none)
    (clear : ∀ o ∈ m.views, ∀ space a, o.Covers space a →
      view.Covers space a → o = view) : m.Sound (some view) none := by
  refine { ok with
    apart := fun one inOne o inOther space a here there => ?_
    covered := fun space a page mapped => ?_
    quiet := nofun
    reached := fun core e mem => ?_ }
  · simp only [Option.toList_some, mem_append, mem_singleton] at inOne inOther
    rcases inOne with listed | rfl
    · rcases inOther with other_listed | rfl
      · exact ok.apart one (by simpa using listed) o (by simpa using other_listed) space a
          here there
      · exact clear one listed space a here there
    · rcases inOther with listed | rfl
      · exact (clear o listed space a there here).symm
      · rfl
  · obtain ⟨o, listed, facts⟩ := ok.covered space a page mapped
    exact ⟨o, by simp_all, facts⟩
  · rcases ok.reached core e mem with mapped | late | ⟨_, is, _⟩
    · exact .inl mapped
    · exact .inr (.inl late)
    · cases is

/-- The view at hand and the list together name the same views. -/
theorem relist (ok : m.Sound (some view) owed) {views : List View} {owes : Option Nat}
    (listed : ∀ o, o ∈ views ++ [view] ↔ o ∈ m.views ++ [view])
    (counted : ∀ object, (views.countP (·.object = object) + if owes = some object then 1 else 0) =
      m.views.countP (·.object = object) + if owed = some object then 1 else 0) :
    Sound { m with views } (some view) owes := by
  refine { ok with
    apart := fun one inOne o inOther => ok.apart one ((listed one).mp inOne) o
      ((listed o).mp inOther)
    covered := fun space a page mapped => ?_
    counted := fun object => ?_ }
  · obtain ⟨o, mem, facts⟩ := ok.covered space a page mapped
    exact ⟨o, (listed o).mpr mem, facts⟩
  · have old := ok.counted object
    have now := counted object
    dsimp only
    omega

theorem settle (ok : m.Sound (some view) (some view.object))
    (quiet : ∀ core, m.stale core = false) :
    Sound { m with views := view :: m.views } none none := by
  have taken : Sound { m with views := view :: m.views } (some view) none := by
    refine ok.relist (fun o => ?_) fun object => ?_
    · simp [or_comm]
    · simp [countP_cons]
  exact taken.idle (.inl mem_cons_self) quiet

/-- A view leaves the list, and its reference is owed. -/
theorem erase (ok : m.Sound (some view) none) (mem : view ∈ m.views) :
    Sound { m with views := m.views.erase view } (some view) (some view.object) := by
  refine ok.relist (fun o => ?_) fun object => ?_
  · by_cases same : o = view
    · simp [same]
    · simp [same, mem_erase_of_ne same]
  · have perm := (perm_cons_erase mem).countP_eq (fun o => decide (o.object = object))
    simp only [countP_cons, decide_eq_true_eq, Option.some.injEq, reduceCtorEq, if_false] at perm ⊢
    omega

section

variable (ok : m.Sound none none)
include ok

variable (self : Fin cores) {wrap : Nat → Nat}

/-- A section has no more references put off than references. -/
theorem keeps_deferred (keeps : m.Keeps wrap) {object waiting : Nat}
    (fewer : waiting ≤ (m.objects object).deferredRefs) : wrap (waiting + 1) = waiting + 1 := by
  have counted := ok.counted object
  simp only [reduceCtorEq, if_false] at counted
  exact keeps object _ (by omega)

theorem placeView (keeps : m.Keeps wrap) (live : (m.objects view.object).live = true)
    (empty : ∀ i < view.size, m.tables view.space (view.base + i) = none)
    (clear : ∀ o ∈ m.views, ∀ space a, o.Covers space a →
      view.Covers space a → o = view) (memory : Nat → Bool)
    (during undoing : Nat → List (Fin cores × Nat)) :
    (m.placeView wrap self view memory during undoing).Sound none none := by
  have placed := (ok.begin clear).mapPages self during memory empty (Nat.le_refl view.size)
  obtain ⟨few, ⟨_, _, frame⟩, same⟩ := m.mapPages_frame self during view memory view.size
  unfold Machine.placeView
  dsimp only
  generalize m.mapPages self view memory during view.size = mapped at placed few frame same
  split
  · refine (placed.retain ?_ ?_).settle fun core => ?_
    · rw [frame]
      exact live
    · rw [frame]
      exact keeps _ _ le_rfl
    · change mapped.1.stale core = false
      rw [frame]
      exact ok.quiet rfl core
  · have undone := placed.unmapPages self undoing few
    have same_objects : (mapped.1.unmapPages self view.space view.base undoing mapped.2).objects =
        m.objects := by
      obtain ⟨_, _, _, undo⟩ := mapped.1.unmapPages_eq self undoing view.space view.base mapped.2
      rw [undo, frame]
    refine (undone.retain ?_ ?_).releaseAfterShootdown ?_ fun a covers => ?_
    · rw [same_objects]
      exact live
    · rw [same_objects]
      exact keeps _ _ le_rfl
    · simp only [Machine.retain, Machine.setObject, update_self, same_objects]
      exact ok.keeps_deferred keeps le_rfl
    refine unmapPages_none self undoing ?_
    obtain ⟨i, rfl⟩ := Nat.exists_eq_add_of_le covers.2.1
    have ins : i < view.size := Nat.lt_of_add_lt_add_left covers.2.2
    rcases Nat.lt_or_ge i mapped.2 with below | above
    · exact .inl ⟨i, below, rfl, rfl⟩
    · exact .inr ((same i above).trans (empty i ins))

theorem mapSectionView (keeps : m.Keeps wrap) (space base object : Nat)
    (memory : Nat → Bool) (room : Bool) (during undoing : Nat → List (Fin cores × Nat)) :
    (m.mapSectionView wrap self space base object memory room during undoing).Sound none none := by
  unfold Machine.mapSectionView
  split
  · exact ok
  next allowed =>
    simp only [not_or, Bool.not_eq_false, userRangeIsFree, all_eq_true,
      mem_range, Option.isNone_iff_eq_none, Bool.not_eq_true', View.overlaps,
      Bool.and_eq_false_iff, decide_eq_false_iff_not] at allowed
    obtain ⟨-, live, -, ⟨free, clear⟩, -⟩ := allowed
    refine ok.placeView self keeps live free (fun o listed place a here there => ?_) memory
      during undoing
    have apart := clear o listed
    obtain ⟨rfl, low, high⟩ := here
    obtain ⟨same, least, most⟩ := there
    dsimp only at same least most
    omega

omit ok in
theorem releaseAfterShootdown_views (m : Machine cores) (views : List View) (object : Nat) :
    { m.releaseAfterShootdown wrap object with views } =
      Machine.releaseAfterShootdown { m with views } wrap object := by
  by_cases quiet : m.anyStale = false
  · rw [Machine.releaseAfterShootdown, if_pos quiet]
    exact (if_pos quiet).symm
  · rw [Machine.releaseAfterShootdown, if_neg quiet]
    exact (if_neg quiet).symm

theorem removeView (keeps : m.Keeps wrap) (mem : view ∈ m.views)
    (during : Nat → List (Fin cores × Nat)) :
    (m.removeView wrap self view during).Sound none none := by
  have begun : m.Sound (some view) none := ok.begin fun o listed space a here there =>
      ok.apart o (by simpa using listed) view (by simpa using mem) space a here there
  have reclaimed := (begun.unmapPages self during (Nat.le_refl view.size)).reclaimDeferredViews
  obtain ⟨_, _, _, unmapped⟩ := m.unmapPages_eq self during view.space view.base view.size
  have still : view ∈ (m.unmapPages self view.space view.base during
      view.size).reclaimDeferredViews.views := by
    change view ∈ (Machine.reclaimFrom _ _).1.views
    rw [reclaimFrom_eq, unmapped]
    exact mem
  rw [Machine.removeView, releaseAfterShootdown_views]
  refine (reclaimed.erase still).releaseAfterShootdown ?_ fun a covers => ?_
  · refine @keeps_deferred _ _ ok _ keeps view.object _ ?_
    change ((Machine.reclaimFrom _ _).1.objects _).deferredRefs ≤ _
    rw [reclaimFrom_eq, unmapped]
    dsimp only
    split
    · exact Nat.zero_le _
    · exact le_rfl
  obtain ⟨i, rfl⟩ := Nat.exists_eq_add_of_le covers.2.1
  change (Machine.reclaimFrom _ _).1.tables _ _ = none
  rw [reclaimFrom_eq]
  exact unmapPages_none self during (.inl ⟨i, Nat.lt_of_add_lt_add_left covers.2.2, rfl, rfl⟩)

theorem unmapSectionView (keeps : m.Keeps wrap) (space base : Nat)
    (during : Nat → List (Fin cores × Nat)) :
    (m.unmapSectionView wrap self space base during).Sound none none := by
  unfold Machine.unmapSectionView
  split
  · exact ok
  · next view found => exact ok.removeView self keeps (mem_of_find?_eq_some found) during

/-! ### Runs -/

omit ok in
/-- A handle takes over a reference, or leaves one. -/
theorem setHandles (ok : m.Sound busy owed) {object n : Nat} {owes : Option Nat}
    (same : (n + if owes = some object then 1 else 0) =
      m.handles object + if owed = some object then 1 else 0)
    (others : ∀ o ≠ object, (owes = some o ↔ owed = some o)) :
    Sound { m with handles := update m.handles object n } busy
      owes := by
  refine { ok with counted := fun o => ?_ }
  have counted := ok.counted o
  by_cases here : o = object
  · subst here
    simp only [update_self]
    omega
  · simp only [update_of_ne here, others o here]
    exact counted

theorem create (pageCount : Nat) : (m.create pageCount).Sound none none := by
  have counted := ok.counted m.made
  rw [ok.dead _ (ok.fresh _ (Nat.le_refl _))] at counted
  have numbered : Sound { m with made := m.made + 1 } none none :=
    { ok with fresh := fun object unmade => ok.fresh object (Nat.le_of_succ_le unmade) }
  have born : (Machine.setObject { m with made := m.made + 1 } m.made
      { live := true, pageCount, refs := 1 }).Sound none (some m.made) := by
    refine numbered.setObject (Nat.zero_le _) ?_ (fun o differs => ?_) nofun
      (fun _ => Nat.lt_succ_self _) (fun core some => ?_)
    · simp only [if_true]
      omega
    · simp [Ne.symm differs]
    · simp only at some
      omega
  refine born.setHandles ?_ fun o differs => ?_
  · change 1 + 0 = m.handles m.made + if some m.made = some m.made then 1 else 0
    rw [if_pos rfl]
    omega
  · simp [Ne.symm differs]

theorem duplicate (keeps : m.Keeps wrap) (object : Nat) :
    (m.duplicate wrap object).Sound none none := by
  unfold Machine.duplicate
  split
  · exact ok
  next held =>
    have live : (m.objects object).live = true := by
      by_contra dead
      have counted := ok.counted object
      rw [ok.dead object (by simpa using dead)] at counted
      omega
    exact (ok.retain live (keeps object _ le_rfl)).setHandles
      (by simp [Machine.retain, Machine.setObject])
      fun o differs => by simp [Ne.symm differs]

theorem close (object : Nat) : (m.close object).Sound none none := by
  unfold Machine.close
  split
  · exact ok
  next held =>
    have owing : Machine.Sound { m with
        handles := update m.handles object (m.handles object - 1) } none
        (some object) := by
      refine ok.setHandles ?_ fun o differs => ?_
      · simp only [if_true, reduceCtorEq, if_false]
        omega
      · simp [Ne.symm differs]
    exact owing.release

theorem step (keeps : m.Keeps wrap) (step : Step cores) : (m.step wrap step).Sound none none := by
  cases step with
  | access core a => exact ok.access (core, a)
  | load core space => exact ok.loadAddressSpace ..
  | sync core => exact ok.syncUserTlb core
  | map self space base object memory room during undoing =>
    exact ok.mapSectionView self keeps ..
  | unmap self space base during => exact ok.unmapSectionView self keeps ..
  | reclaim => exact ok.reclaimDeferredViews
  | create pageCount => exact ok.create pageCount
  | duplicate object => exact ok.duplicate keeps object
  | close object => exact ok.close object

theorem run (steps : List (Step cores)) (fits : m.CountsFit wrap steps) :
    (steps.foldl (Machine.step wrap) m).Sound none none := by
  induction steps generalizing m with
  | nil => exact ok
  | cons step rest ih => exact ih (ok.step fits.1 step) fits.2

/-- A section that a translation leads to is referenced. -/
theorem live {core : Fin cores} {e : Nat × Page}
    (mem : e ∈ m.tlb core) : (m.objects e.2.1).live = true := by
  by_contra dead
  have counted := ok.counted e.2.1
  rw [ok.dead _ (by simpa using dead)] at counted
  rcases ok.reached core e mem with mapped | ⟨deferred, -⟩ | ⟨_, is, _⟩
  · obtain ⟨view, listed, -, object⟩ := ok.covered _ _ _ mapped
    have pos : 0 < m.views.countP (·.object = e.2.1) :=
      countP_pos_iff.mpr ⟨view, by simpa using listed, by simpa using object⟩
    omega
  · omega
  · cases is

end

end Sound

end Machine

theorem initial_sound : Machine.Sound ({} : Machine cores) none none :=
  ⟨fun _ => rfl, fun _ => ⟨Nat.le_refl _, Nat.le_refl _⟩, fun _ => Nat.le_refl _, nofun, nofun,
    fun _ => rfl, fun _ _ => rfl, fun _ _ => rfl, fun _ _ => rfl, nofun⟩

/-- What 32 bits hold of a count. -/
def wrap32 (count : Nat) : Nat := count % 2 ^ 32

/-- As long as no count wraps, every translation that any core may hold leads to a page of a
section that has not been freed. -/
theorem no_translation_to_freed_page (steps : List (Step cores)) (core : Fin cores)
    (fits : Machine.CountsFit wrap32 {} steps) : ((run wrap32 steps).tlb core).all
      (fun entry => ((run wrap32 steps).objects entry.2.1).live) = true := by
  have sound : (run wrap32 steps).Sound none none := initial_sound.run steps fits
  exact all_eq_true.mpr fun entry member => sound.live member

theorem keeps_wrap32 {m : Machine cores} (small : ∀ object, (m.objects object).refs + 1 < 2 ^ 32) :
    m.Keeps wrap32 :=
  fun object _ fewer => Nat.mod_eq_of_lt (Nat.lt_of_le_of_lt fewer (small object))

theorem no_translation_to_freed_page_unmapped : ∃ steps : List (Step 2),
    (run wrap32 steps).views = [] ∧ (run wrap32 steps).tlb 1 = [(0, (0, 0))] ∧
      ((run wrap32 steps).tlb 1).all (fun entry => ((run wrap32 steps).objects entry.2.1).live) =
        true := by
  refine ⟨[.create 1, .load 1 1, .map 0 1 0 0 (fun _ => true) true (fun _ => []) (fun _ => []),
    .access 1 0, .unmap 0 1 0 (fun _ => [])], by decide, by decide,
    no_translation_to_freed_page _ 1 ⟨?_, ?_, ?_, ?_, ?_, trivial⟩⟩
  all_goals
    refine keeps_wrap32 fun object => ?_
    cases object with
    | zero => decide
    | succ object => exact (by decide : 0 + 1 < 2 ^ 32)

/-! ## A count that wraps -/

/-- Core 0 runs one thread of a process and core 2 the other, which came from core 1; the
section waits for both cores that ran it. -/
def worn (n : Nat) : Machine 3 where
  objects := update (fun _ => {}) 0
    { live := true, pageCount := 1, refs := 2 * n + 3, deferredRefs := 2 * n + 2,
      deferredCpus := fun core => core.val ≠ 0, deferredSequence := 2 * n + 2 }
  handles := update (fun _ => 0) 0 1
  made := 1
  deferredViews := [0]
  cr3 := fun core => if core.val = 1 then 0 else 1
  loaded := fun core => if core.val = 1 then 0 else 1
  requested := fun core => if core.val = 0 then 0 else 2 * n + core
  done := fun core => if core.val = 0 then 0 else 2 * n + core
  sequence := 2 * n + 2

def mapFirst (self : Fin cores) : Step cores :=
  .map self 1 0 0 (fun _ => true) true (fun _ => []) (fun _ => [])

/-- The other thread moves; the view is mapped and unmapped, and the thread's core flushes
at once. -/
def wear (self gone new : Fin cores) : List (Step cores) :=
  [.load gone 0, .load new 1, mapFirst self, .unmap self 1 0 (fun _ => []), .sync new]

theorem worn_step (n : Nat) (small : 2 * n + 5 < 2 ^ 32) :
    run wrap32 ([.create 1, .load 0 1, .load 1 1, .load 2 1, mapFirst 0,
      .unmap 0 1 0 fun _ => [], .sync 1] ++ wear 0 1 2) = worn 0 ∧
    (wear 0 2 1 ++ wear 0 1 2).foldl (Machine.step wrap32) (worn n) = worn (n + 1) := by
  have fits : ∀ count ≤ 2 * n + 5, wrap32 count = count :=
    fun count fewer => Nat.mod_eq_of_lt (Nat.lt_of_le_of_lt fewer small)
  constructor
  all_goals
    simp [run, wear, mapFirst, worn, fits, finRange, Machine.step, Machine.create,
      Machine.loadAddressSpace, Machine.loadPageTableRoot, Machine.syncUserTlb,
      Machine.mapSectionView, Machine.refusesView, Machine.userRangeIsFree, Machine.placeView,
      Machine.mapPages, Machine.mapPage, Machine.setTable, Machine.invalidatePage,
      Machine.accesses, Machine.retain, Machine.setObject, Machine.unmapSectionView,
      Machine.removeView, Machine.unmapPages, Machine.unmapPage, Machine.noteUserUnmap,
      Machine.reclaimDeferredViews, Machine.reclaimFrom, Machine.reclaimOne,
      Machine.flushedSince, Machine.releaseAfterShootdown, Machine.anyStale,
      Machine.finishShootdown, Object.defer]
  · refine ⟨congrArg _ ?_, ?_, ?_, ?_⟩
    · congr 1
      funext core
      fin_cases core <;> rfl
    all_goals
      funext core
      fin_cases core <;> rfl
  · refine ⟨congrArg _ ?_, ?_, ?_, ?_, by omega⟩
    · congr 1
      funext core
      fin_cases core <;> rfl
    all_goals
      funext core
      fin_cases core <;> simp <;> omega

theorem worn_reached (n : Nat) (small : 2 * n + 3 < 2 ^ 32) :
    ∃ steps, run wrap32 steps = worn n := by
  induction n with
  | zero => exact ⟨_, (worn_step 0 (by decide)).1⟩
  | succ n ih =>
    obtain ⟨steps, reached⟩ := ih (by omega)
    refine ⟨steps ++ (wear 0 2 1 ++ wear 0 1 2), ?_⟩
    rw [run, foldl_append, ← run, reached, (worn_step n (by omega)).2]

/-- The count of a section that was mapped and unmapped often enough wraps to zero when the
section is mapped once more.  To close the handle then frees the page of the view. -/
theorem wrapped_count_frees_mapped_page : ∃ (steps : List (Step 3)) (core : Fin 3),
    ((run wrap32 steps).tlb core).all (fun entry => ((run wrap32 steps).objects entry.2.1).live) =
      false := by
  obtain ⟨steps, reached⟩ := worn_reached (2 ^ 31 - 2) (by decide)
  refine ⟨steps ++ [mapFirst 0, .access 2 0, .close 0], 2, ?_⟩
  rw [run, foldl_append, ← run, reached]
  decide +kernel

/-! ## Giving back what was put off -/

/-- Each core that a section waits for has been asked, and the section is on the list. -/
structure Queued (objects : Nat → Object cores) (requested : Fin cores → Nat) (queue : List Nat) :
    Prop where
  asked : ∀ o core, (objects o).deferredCpus core = true →
    (objects o).deferredSequence ≤ requested core
  listed : ∀ o, (objects o).deferredRefs ≠ 0 → o ∈ queue

section

variable {objects : Nat → Object cores} {requested : Fin cores → Nat} {queue : List Nat}
  {object : Nat}
  (queued : Queued objects requested queue)
include queued

theorem Queued.update {held : Object cores} {now : List Nat}
    (asked : ∀ core, held.deferredCpus core = true → held.deferredSequence ≤ requested core)
    (listed : held.deferredRefs ≠ 0 → object ∈ now) (kept : ∀ o ∈ queue, o ∈ now) :
    Queued (update objects object held) requested now where
  asked := (forall_update_iff _ fun _ (held : Object cores) =>
    ∀ core, held.deferredCpus core = true →
    held.deferredSequence ≤ requested core).mpr ⟨asked, fun o _ => queued.asked o⟩
  listed := (forall_update_iff _ fun o (held : Object cores) => held.deferredRefs ≠ 0 → o ∈ now).mpr
    ⟨listed, fun o _ some => kept o (queued.listed o some)⟩

/-- A reference more or less does not matter. -/
theorem Queued.recount (refs : Nat) (live : Bool) :
    Queued (Function.update objects object { objects object with refs, live }) requested queue :=
  queued.update (queued.asked object) (queued.listed object) fun _ listed => listed

end

namespace Machine

variable {m : Machine cores} {object : Nat}

def Queues (m : Machine cores) : Prop := Queued m.objects m.requested m.deferredViews

/-- If the section is put off now, the cores that it waits for already are all noted. -/
def Renews (m : Machine cores) (object : Nat) : Prop :=
  m.anyStale = true → ∀ core, (m.objects object).deferredCpus core = true → m.stale core = true

/-- Where the step gives a view up, its section renews what it waits for. -/
def StepRenews (m : Machine cores) : Step cores → Prop
  | .map self space base object memory room during undoing =>
    let size := (m.objects object).pageCount
    let mapped := m.mapPages self ⟨space, base, size, object⟩ memory during size
    ¬ m.refusesView space base object room → mapped.2 ≠ size →
      (mapped.1.unmapPages self space base undoing mapped.2).Renews object
  | .unmap self space base during =>
    ∀ view, m.views.find? (fun view => view.space = space && view.base = base) = some view →
      (m.unmapPages self view.space view.base during view.size).reclaimDeferredViews.Renews
        view.object
  | _ => True

/-- Each step of the run renews what it puts off. -/
def Renewing : Machine cores → List (Step cores) → Prop
  | _, [] => True
  | m, step :: rest => m.StepRenews step ∧ Renewing (m.step id step) rest

namespace Queues

theorem reclaimDeferredViews (queued : m.Queues) : m.reclaimDeferredViews.Queues := by
  unfold Queues Machine.reclaimDeferredViews
  rw [reclaimFrom_eq]
  refine ⟨fun o core => ?_, fun o => ?_⟩
  · dsimp only
    split
    · exact nofun
    · exact queued.asked o core
  · dsimp only
    split
    · exact absurd rfl
    · next stays =>
      intro some
      have listed := queued.listed o some
      exact mem_filter.mpr ⟨listed, by simpa [listed] using stays⟩

/-- Once the cores have flushed what was asked, no section stays on the list. -/
theorem reclaimed (queued : m.Queues) (flushed : ∀ core, m.done core = m.requested core) :
    m.reclaimDeferredViews.deferredViews = [] := by
  unfold Machine.reclaimDeferredViews
  rw [reclaimFrom_eq]
  refine filter_eq_nil_iff.mpr fun o _ => ?_
  rw [Bool.not_eq_true', Bool.not_eq_false, Sound.flushedFor_iff]
  intro core cpu
  rw [flushed core]
  exact queued.asked o core cpu

/-- The section is put off behind the cores that it waits for already. -/
theorem releaseAfterShootdown (queued : m.Queues) (bound : ∀ core, m.requested core ≤ m.sequence)
    (renews : m.Renews object) : (m.releaseAfterShootdown id object).Queues := by
  unfold Machine.releaseAfterShootdown
  split
  · exact queued.recount ..
  next noted =>
  have later : Queued m.objects m.finishShootdown.requested m.deferredViews := by
    refine ⟨fun o core cpu => Nat.le_trans (queued.asked o core cpu) ?_, queued.listed⟩
    have bound := bound core
    unfold finishShootdown
    dsimp only
    split <;> omega
  refine later.update (fun core cpu => ?_) (fun _ => ?_) fun o listed => ?_
  · have stale : m.stale core = true :=
      (Bool.or_eq_true_iff.mp cpu).elim (renews (by simpa using noted) core) id
    exact Nat.le_of_eq (if_pos stale).symm
  · dsimp only [setObject]
    split
    · exact mem_cons_self
    · next waits => exact queued.listed object waits
  · dsimp only [setObject]
    split
    · exact mem_cons_of_mem _ listed
    · exact listed

theorem step (queued : m.Queues) (ok : m.Sound none none) (step : Step cores)
    (renews : m.StepRenews step) : (m.step id step).Queues := by
  have bound := fun core => (ok.numbered core).2
  cases step with
  | access core a =>
    obtain ⟨_, same⟩ := m.accesses_eq [(core, a)]
    change (m.accesses [(core, a)]).Queues
    rw [same]
    exact queued
  | load core space =>
    simp only [Machine.step, loadAddressSpace]
    split <;> exact queued
  | sync core =>
    simp only [Machine.step, syncUserTlb]
    split <;> exact queued
  | map self space base object memory room during undoing =>
    simp only [Machine.step, mapSectionView, placeView]
    split
    · exact queued
    next allowed =>
    have renews := renews allowed
    obtain ⟨-, ⟨_, _, mapped⟩, -⟩ := m.mapPages_frame self during
      ⟨space, base, (m.objects object).pageCount, object⟩ memory (m.objects object).pageCount
    generalize m.mapPages self _ memory during _ = pages at mapped renews ⊢
    split
    · rw [mapped]
      exact queued.recount ..
    · next fails =>
      obtain ⟨_, _, _, undone⟩ := pages.1.unmapPages_eq self undoing space base pages.2
      have renews := renews fails
      rw [undone, mapped] at renews ⊢
      refine releaseAfterShootdown (queued.recount ..) bound fun noted core cpu =>
        renews noted core ?_
      simpa [retain, setObject] using cpu
  | unmap self space base during =>
    simp only [Machine.step, unmapSectionView]
    split
    · exact queued
    next view found =>
    have renews := renews view found
    obtain ⟨_, _, _, unmapped⟩ := m.unmapPages_eq self during view.space view.base view.size
    rw [unmapped] at renews
    rw [removeView, Sound.releaseAfterShootdown_views, unmapped]
    refine releaseAfterShootdown ?_ (fun core => ?_) renews
    · exact reclaimDeferredViews (m := { m with tables := _, tlb := _, stale := _ }) queued
    · rw [Machine.reclaimDeferredViews, reclaimFrom_eq]
      exact bound core
  | reclaim => exact queued.reclaimDeferredViews
  | create pageCount => exact queued.update nofun (absurd rfl) fun _ listed => listed
  | duplicate object =>
    simp only [Machine.step, duplicate]
    split
    · exact queued
    · exact queued.recount ..
  | close object =>
    simp only [Machine.step, close]
    split
    · exact queued
    · exact queued.recount ..

theorem run (queued : m.Queues) (ok : m.Sound none none) {steps : List (Step cores)}
    (renewing : m.Renewing steps) : (steps.foldl (Machine.step id) m).Queues := by
  induction steps generalizing m with
  | nil => exact queued
  | cons step rest ih =>
    exact ih (queued.step ok step renewing.1) (ok.step (fun _ _ _ => rfl) step) renewing.2

end Queues

end Machine

/-- If no shootdown passes over a core that the section waits for already, then once all cores
have flushed what was asked of them, every reference put off is given back. -/
theorem reclaim_gives_back (steps : List (Step cores)) (renewing : Machine.Renewing {} steps)
    (flushed : ∀ core, (run id steps).done core = (run id steps).requested core) :
    (run id steps).reclaimDeferredViews.deferredViews = [] ∧ ∀ object,
      ((run id steps).reclaimDeferredViews.objects object).deferredRefs = 0 ∧
      ((run id steps).reclaimDeferredViews.objects object).refs +
        ((run id steps).objects object).deferredRefs =
        ((run id steps).objects object).refs := by
  have ok : (run id steps).Sound none none := initial_sound.run steps (Machine.countsFit_id ..)
  have queued : (run id steps).Queues := by
    refine Machine.Queues.run ?_ initial_sound renewing
    exact ⟨nofun, fun _ some => absurd rfl some⟩
  have empty := queued.reclaimed flushed
  refine ⟨empty, fun object => ?_⟩
  have none : ((run id steps).reclaimDeferredViews.objects object).deferredRefs = 0 := by
    by_contra some
    have listed := queued.reclaimDeferredViews.listed object some
    rw [empty] at listed
    cases listed
  have before := ok.counted object
  have after := ok.reclaimDeferredViews.counted object
  rw [none] at after
  refine ⟨none, ?_⟩
  rw [after, before]
  simp [Machine.reclaimDeferredViews, Machine.reclaimFrom_eq]

theorem reclaim_gives_back_one_view : ∃ steps : List (Step 2),
    ((run id steps).objects 0).deferredRefs = 1 ∧
      ((run id steps).reclaimDeferredViews.objects 0).deferredRefs = 0 := by
  refine ⟨[.create 1, .load 1 1, .map 0 1 0 0 (fun _ => true) true (fun _ => []) (fun _ => []),
    .unmap 0 1 0 (fun _ => []), .sync 1], by decide, ((reclaim_gives_back _ ?_ (by decide)).2 0).1⟩
  refine ⟨trivial, trivial, fun _ fails => absurd (by decide) fails, ?_, trivial, trivial⟩
  intro view found noted core
  obtain rfl : (⟨1, 0, 1, 0⟩ : View) = view := Option.some.inj found
  revert core
  decide

/-- Two cores of an address space each: the section waits for the first at the number of the
second, which the first was never asked for. -/
theorem reclaim_keeps_reference : ∃ steps : List (Step 3),
    (∀ core, (run id steps).done core = (run id steps).requested core) ∧
      (run id steps).reclaimDeferredViews.deferredViews = [0] ∧
      ((run id steps).reclaimDeferredViews.objects 0).deferredRefs = 2 :=
  ⟨[.create 1, .load 1 1, .load 2 2, .map 0 1 0 0 (fun _ => true) true (fun _ => []) (fun _ => []),
    .map 0 2 0 0 (fun _ => true) true (fun _ => []) (fun _ => []), .unmap 0 1 0 (fun _ => []),
    .unmap 0 2 0 (fun _ => []), .sync 1, .sync 2], by decide, by decide, by decide⟩

end

end SavanXP.Shootdown
