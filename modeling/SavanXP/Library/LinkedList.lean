import Mathlib

/-!
# Lists threaded through pointer fields

Nodes carry a pointer to the next node and one to the previous node.  `Links`
says that the nodes of a list point at each other in order, that the first one
points back to `before` and that the last one points on to `after`.
-/

namespace SavanXP.Library

open List

variable {α : Type}

def Links (next prev : α → Option α) : Option α → List α → Option α → Prop
  | _, [], _ => True
  | before, node :: rest, after =>
    prev node = before ∧ next node = rest.head?.or after ∧
      Links next prev (some node) rest after

variable {next prev next' previous' : α → Option α} {before after : Option α}

theorem links_append {first second : List α} : Links next prev before (first ++ second) after ↔
      Links next prev before first (second.head?.or after) ∧
        Links next prev (first.getLast?.or before) second after := by
  induction first generalizing before with
  | nil => exact (and_iff_right trivial).symm
  | cons node rest ih =>
    have heads : ((rest ++ second).head?).or after = rest.head?.or (second.head?.or after) := by
      cases rest <;> rfl
    have lasts : (node :: rest).getLast?.or before = rest.getLast?.or (some node) := by
      cases rest with
      | nil => rfl
      | cons other rest => simp [List.getLast?_cons]
    rw [cons_append, Links, Links, ih, heads, lasts, and_assoc, and_assoc]

variable {nodes : List α}

section

variable (links : Links next prev before nodes after)
include links

/-- Only the fields of the listed nodes matter. -/
theorem Links.congr (sameNext : ∀ node ∈ nodes, next' node = next node)
    (samePrevious : ∀ node ∈ nodes, previous' node = prev node) :
    Links next' previous' before nodes after := by
  induction nodes generalizing before with
  | nil => trivial
  | cons node rest ih =>
    obtain ⟨back, forth, links⟩ := links
    rw [forall_mem_cons] at sameNext samePrevious
    exact ⟨samePrevious.1.trans back, sameNext.1.trans forth, ih links sameNext.2 samePrevious.2⟩

theorem Links.last_next {node : α} (last : nodes.getLast? = some node) : next node = after := by
  obtain ⟨front, rfl⟩ := List.getLast?_eq_some_iff.mp last
  exact (links_append.mp links).2.2.1

/-- Pointing the first node back to another node. -/
theorem Links.changeBefore (before' : Option α) (sameNext : ∀ node ∈ nodes, next' node = next node)
    (first : ∀ node, nodes.head? = some node → previous' node = before')
    (samePrevious : ∀ node ∈ nodes.tail, previous' node = prev node) :
    Links next' previous' before' nodes after := by
  cases nodes with
  | nil => trivial
  | cons node rest =>
    obtain ⟨_, forth, links⟩ := links
    rw [forall_mem_cons] at sameNext
    exact ⟨first node rfl, sameNext.1.trans forth, links.congr sameNext.2 samePrevious⟩

/-- Pointing the last node on to another node. -/
theorem Links.changeAfter (after' : Option α)
    (samePrevious : ∀ node ∈ nodes, previous' node = prev node)
    (last : ∀ node, nodes.getLast? = some node → next' node = after')
    (sameNext : ∀ node ∈ nodes.dropLast, next' node = next node) :
    Links next' previous' before nodes after' := by
  rcases eq_nil_or_concat nodes with rfl | ⟨front, node, rfl⟩
  · trivial
  rw [concat_eq_append] at links samePrevious last sameNext ⊢
  rw [dropLast_concat] at sameNext
  rw [forall_mem_append] at samePrevious
  obtain ⟨frontLinks, back, _, _⟩ := links_append.mp links
  refine links_append.mpr ⟨frontLinks.congr sameNext samePrevious.1, ?_, ?_, trivial⟩
  · exact (samePrevious.2 node mem_cons_self).trans back
  · exact last node List.getLast?_concat

end

/-- Replacing a stretch of nodes by another one that starts with the same node. -/
theorem Links.replace {front old new back : List α}
    (links : Links next prev before (front ++ (old ++ back)) after)
    (sameHead : (new ++ back).head?.or after = (old ++ back).head?.or after)
    (frontNext : ∀ node ∈ front, next' node = next node)
    (frontPrevious : ∀ node ∈ front, previous' node = prev node)
    (middle : Links next' previous' (front.getLast?.or before) new (back.head?.or after))
    (backNext : ∀ node ∈ back, next' node = next node) (backFirst : ∀ node, back.head? = some node →
      previous' node = new.getLast?.or (front.getLast?.or before))
    (backPrevious : ∀ node ∈ back.tail, previous' node = prev node) :
    Links next' previous' before (front ++ (new ++ back)) after := by
  obtain ⟨frontLinks, rest⟩ := links_append.mp links
  obtain ⟨_, backLinks⟩ := links_append.mp rest
  rw [← sameHead] at frontLinks
  exact links_append.mpr ⟨frontLinks.congr frontNext frontPrevious, links_append.mpr
    ⟨middle, backLinks.changeBefore _ backNext backFirst backPrevious⟩⟩

/-- Unlinking a node: the one before it points past it and the one after it
points back past it. -/
theorem Links.remove {front back : List α} {node : α}
    (links : Links next prev before (front ++ node :: back) after)
    (frontPrevious : ∀ other ∈ front, previous' other = prev other)
    (frontLast : ∀ other, front.getLast? = some other → next' other = next node)
    (frontNext : ∀ other ∈ front.dropLast, next' other = next other)
    (backNext : ∀ other ∈ back, next' other = next other)
    (backFirst : ∀ other, back.head? = some other → previous' other = prev node)
    (backPrevious : ∀ other ∈ back.tail, previous' other = prev other) :
    Links next' previous' before (front ++ back) after := by
  obtain ⟨frontLinks, isPrevious, isNext, backLinks⟩ := links_append.mp links
  rw [isNext] at frontLast
  rw [isPrevious] at backFirst
  exact links_append.mpr ⟨frontLinks.changeAfter _ frontPrevious frontLast frontNext,
    backLinks.changeBefore _ backNext backFirst backPrevious⟩

end SavanXP.Library
