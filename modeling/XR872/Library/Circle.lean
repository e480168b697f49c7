/-
Circular doubly linked lists whose nodes carry their own links.

A circle is a head and its items, each linked to the next and back. Inserting a
node that is alone and removing a node keep the circle, and change no link of a
node outside it.
-/

import Mathlib

namespace XR872.Circles

variable {α : Type} [DecidableEq α]

@[ext] structure Links (α : Type) where
  next : α → α
  prev : α → α

namespace Links

def setNext (links : Links α) (node value : α) : Links α :=
  { links with next := Function.update links.next node value }

def setPrev (links : Links α) (node value : α) : Links α :=
  { links with prev := Function.update links.prev node value }

/-- Every node alone. -/
def apart (α : Type) : Links α := { next := id, prev := id }

def insert (links : Links α) (node prev next : α) : Links α :=
  (((links.setPrev next node).setNext node next).setPrev node prev).setNext
    prev node

def remove (links : Links α) (node : α) : Links α :=
  let prev := links.prev node
  let next := links.next node
  (((links.setPrev next prev).setNext prev next).setNext node node).setPrev
    node node

end Links

def Alone (links : Links α) (node : α) : Prop :=
  links.next node = node ∧ links.prev node = node

def Path (links : Links α) : α → List α → α → Prop
  | first, [], last => links.next first = last ∧ links.prev last = first
  | first, item :: rest, last =>
      (links.next first = item ∧ links.prev item = first) ∧
        Path links item rest last

structure Circle (links : Links α) (head : α) (items : List α) : Prop where
  nodup : (head :: items).Nodup
  path : Path links head items head

/-! ### Paths -/

variable (links other : Links α)

omit [DecidableEq α] in
theorem path_append (first last item : α) (before after : List α) :
    Path links first (before ++ item :: after) last ↔
      Path links first before item ∧ Path links item after last := by
  induction before generalizing first with
  | nil => exact Iff.rfl
  | cons second rest ih =>
      change (_ ∧ Path links second (rest ++ item :: after) last) ↔ _
      rw [ih second, ← and_assoc]
      exact Iff.rfl

omit [DecidableEq α] in
theorem path_congr (first last : α) (items : List α)
    (path : Path links first items last)
    (next : ∀ node ∈ first :: items, other.next node = links.next node)
    (prev : ∀ node ∈ items ++ [last], other.prev node = links.prev node) :
    Path other first items last := by
  induction items generalizing first with
  | nil =>
      obtain ⟨forth, back⟩ := path
      exact ⟨(next first List.mem_cons_self).trans forth,
        (prev last List.mem_cons_self).trans back⟩
  | cons item rest ih =>
      obtain ⟨⟨forth, back⟩, path⟩ := path
      refine ⟨⟨(next first List.mem_cons_self).trans forth,
        (prev item List.mem_cons_self).trans back⟩, ?_⟩
      apply ih item path
      · intro node member
        exact next node (List.mem_cons_of_mem _ member)
      · intro node member
        exact prev node (List.mem_cons_of_mem _ member)

omit [DecidableEq α] in
theorem path_prev_mem (first last : α) (items : List α)
    (path : Path links first items last) :
    links.prev last ∈ first :: items := by
  induction items generalizing first with
  | nil =>
      rw [path.2]
      exact List.mem_cons_self
  | cons item rest ih => exact List.mem_cons_of_mem _ (ih item path.2)

omit [DecidableEq α] in
theorem path_next (first last : α) (items : List α)
    (path : Path links first items last) :
    links.next first = items.headD last := by
  cases items with
  | nil => exact path.1
  | cons item rest => exact path.1.1

omit [DecidableEq α] in
theorem path_retarget (first last target : α) (items : List α)
    (path : Path links first items last) (nodup : (first :: items).Nodup)
    (next : ∀ node ∈ first :: items, node ≠ links.prev last →
      other.next node = links.next node)
    (prev : ∀ node ∈ items, other.prev node = links.prev node)
    (forth : other.next (links.prev last) = target)
    (back : other.prev target = links.prev last) :
    Path other first items target := by
  induction items generalizing first with
  | nil =>
      rw [path.2] at forth back
      exact ⟨forth, back⟩
  | cons item rest ih =>
      obtain ⟨⟨toItem, fromItem⟩, path⟩ := path
      obtain ⟨fresh, nodup⟩ := List.nodup_cons.mp nodup
      have end_mem := path_prev_mem links item last rest path
      have apart : first ≠ links.prev last := by
        intro same
        rw [← same] at end_mem
        exact fresh end_mem
      refine ⟨⟨(next first List.mem_cons_self apart).trans toItem,
        (prev item List.mem_cons_self).trans fromItem⟩, ?_⟩
      apply ih item path nodup
      · intro node member
        exact next node (List.mem_cons_of_mem _ member)
      · intro node member
        exact prev node (List.mem_cons_of_mem _ member)

/-! ### What the operations change -/

theorem insert_next (node prev next place : α) :
    (links.insert node prev next).next place =
      if place = prev then node
      else if place = node then next else links.next place := by
  change Function.update (Function.update links.next node next) prev node place
    = _
  by_cases first : place = prev
  · rw [first, Function.update_self, if_pos rfl]
  · rw [Function.update_of_ne first, if_neg first]
    by_cases second : place = node
    · rw [second, Function.update_self, if_pos rfl]
    · rw [Function.update_of_ne second, if_neg second]

theorem insert_prev (node prev next : α) (apart : node ≠ next) (place : α) :
    (links.insert node prev next).prev place =
      if place = next then node
      else if place = node then prev else links.prev place := by
  change Function.update (Function.update links.prev next node) node prev place
    = _
  by_cases first : place = next
  · rw [first, if_pos rfl, Function.update_of_ne apart.symm,
      Function.update_self]
  · rw [if_neg first]
    by_cases second : place = node
    · rw [second, Function.update_self, if_pos rfl]
    · rw [Function.update_of_ne second, if_neg second,
        Function.update_of_ne first]

theorem remove_next (node place : α) :
    (links.remove node).next place =
      if place = node then node
      else if place = links.prev node then links.next node
      else links.next place := by
  change Function.update (Function.update links.next (links.prev node)
    (links.next node)) node node place = _
  by_cases first : place = node
  · rw [first, Function.update_self, if_pos rfl]
  · rw [Function.update_of_ne first, if_neg first]
    by_cases second : place = links.prev node
    · rw [second, Function.update_self, if_pos rfl]
    · rw [Function.update_of_ne second, if_neg second]

theorem remove_prev (node place : α) :
    (links.remove node).prev place =
      if place = node then node
      else if place = links.next node then links.prev node
      else links.prev place := by
  change Function.update (Function.update links.prev (links.next node)
    (links.prev node)) node node place = _
  by_cases first : place = node
  · rw [first, Function.update_self, if_pos rfl]
  · rw [Function.update_of_ne first, if_neg first]
    by_cases second : place = links.next node
    · rw [second, Function.update_self, if_pos rfl]
    · rw [Function.update_of_ne second, if_neg second]

theorem remove_alone (node : α) (alone : Alone links node) :
    links.remove node = links := by
  obtain ⟨forth, back⟩ := alone
  have next : (links.remove node).next = links.next := by
    funext place
    rw [remove_next]
    by_cases same : place = node
    · rw [if_pos same, same, forth]
    · rw [if_neg same, back, if_neg same]
  have prev : (links.remove node).prev = links.prev := by
    funext place
    rw [remove_prev]
    by_cases same : place = node
    · rw [if_pos same, same, back]
    · rw [if_neg same, forth, if_neg same]
  exact Links.ext next prev

theorem alone_removed (node : α) : Alone (links.remove node) node := by
  constructor
  · rw [remove_next, if_pos rfl]
  · rw [remove_prev, if_pos rfl]

/-! ### Circles -/

omit [DecidableEq α] in
theorem circle_nil (head : α) (alone : Alone links head) :
    Circle links head [] := by
  exact {
    nodup := List.nodup_singleton head
    path := alone }

omit [DecidableEq α] in
theorem Circle.alone_iff {links : Links α} {head : α} {items : List α}
    (circle : Circle links head items) : links.next head = head ↔ items = [] := by
  have next := path_next links head head items circle.path
  rw [next]
  cases items with
  | nil => exact iff_of_true rfl rfl
  | cons item rest =>
      apply iff_of_false
      · intro same
        have fresh := (List.nodup_cons.mp circle.nodup).1
        change item = head at same
        rw [same] at fresh
        exact fresh List.mem_cons_self
      · exact List.cons_ne_nil _ _

omit [DecidableEq α] in
theorem Circle.next_item {links : Links α} {head : α} {before after : List α}
    {item : α} (circle : Circle links head (before ++ item :: after)) :
    links.next item = after.headD head :=
  path_next links item head after
    ((path_append links head head item before after).mp circle.path).2

omit [DecidableEq α] in
theorem Circle.not_alone {links : Links α} {head : α} {items : List α}
    (circle : Circle links head items) (item : α) (member : item ∈ items) :
    links.next item ≠ item := by
  obtain ⟨before, after, split⟩ := List.append_of_mem member
  rw [split] at circle
  rw [circle.next_item]
  have nodup := circle.nodup
  cases after with
  | nil =>
      intro same
      change head = item at same
      apply (List.nodup_cons.mp nodup).1
      rw [same]
      exact List.mem_append_right _ List.mem_cons_self
  | cons following rest =>
      intro same
      change following = item at same
      have tail := (List.nodup_append.mp (List.nodup_cons.mp nodup).2).2.1
      apply (List.nodup_cons.mp tail).1
      rw [same]
      exact List.mem_cons_self

theorem Circle.insert_last {links : Links α} {head : α} {items : List α}
    (circle : Circle links head items) (node : α)
    (fresh : node ∉ head :: items) :
    Circle (links.insert node (links.prev head) head) head (items ++ [node]) := by
  have last := path_prev_mem links head head items circle.path
  have apartLast : node ≠ links.prev head := by
    intro same
    rw [same] at fresh
    exact fresh last
  have apartHead : node ≠ head := by
    intro same
    rw [same] at fresh
    exact fresh List.mem_cons_self
  have headItems : head ∉ items := (List.nodup_cons.mp circle.nodup).1
  exact {
    nodup := by
      rw [← List.cons_append, List.nodup_append]
      refine ⟨circle.nodup, List.nodup_singleton node, ?_⟩
      intro item member other single
      rw [List.mem_singleton.mp single]
      intro same
      rw [same] at member
      exact fresh member
    path := by
      rw [path_append]
      constructor
      · apply path_retarget links _ head head node items circle.path circle.nodup
        · intro item member notLast
          have other : item ≠ node := by
            intro same
            rw [same] at member
            exact fresh member
          rw [insert_next, if_neg notLast, if_neg other]
        · intro item member
          have other : item ≠ node := by
            intro same
            rw [same] at member
            exact fresh (List.mem_cons_of_mem _ member)
          have notHead : item ≠ head := by
            intro same
            rw [same] at member
            exact headItems member
          rw [insert_prev _ _ _ _ apartHead, if_neg notHead, if_neg other]
        · rw [insert_next, if_pos rfl]
        · rw [insert_prev _ _ _ _ apartHead, if_neg apartHead, if_pos rfl]
      · constructor
        · rw [insert_next, if_neg apartLast, if_pos rfl]
        · rw [insert_prev _ _ _ _ apartHead, if_pos rfl] }

theorem Circle.remove_item {links : Links α} {head : α} {before after : List α}
    {item : α} (circle : Circle links head (before ++ item :: after)) :
    Circle (links.remove item) head (before ++ after) := by
  obtain ⟨headFresh, nodup⟩ := List.nodup_cons.mp circle.nodup
  obtain ⟨beforeNodup, tailNodup, disjoint⟩ := List.nodup_append.mp nodup
  obtain ⟨itemFresh, afterNodup⟩ := List.nodup_cons.mp tailNodup
  obtain ⟨front, back⟩ :=
    (path_append links head head item before after).mp circle.path
  have frontNodup : (head :: before).Nodup := by
    apply List.nodup_cons.mpr ⟨?_, beforeNodup⟩
    intro member
    exact headFresh (List.mem_append_left _ member)
  have prevMem := path_prev_mem links head item before front
  have following := path_next links item head after back
  have notFront : ∀ node ∈ head :: before, node ≠ item := by
    intro node member same
    rw [same] at member
    rcases List.mem_cons.mp member with atHead | inside
    · apply headFresh
      rw [← atHead]
      exact List.mem_append_right _ List.mem_cons_self
    · exact disjoint item inside item List.mem_cons_self rfl
  have notAfter : ∀ node ∈ after, node ≠ item := by
    intro node member same
    rw [same] at member
    exact itemFresh member
  have apart : ∀ node ∈ head :: before, ∀ later ∈ after, node ≠ later := by
    intro node member later inside
    rcases List.mem_cons.mp member with atHead | early
    · rw [atHead]
      intro same
      apply headFresh
      rw [same]
      exact List.mem_append_right _ (List.mem_cons_of_mem _ inside)
    · exact disjoint node early later (List.mem_cons_of_mem _ inside)
  have prevNotItem := notFront _ prevMem
  -- the front of the circle, led on to what followed the item
  have led : ∀ target, links.next item = target → target ≠ item →
      (∀ node ∈ before, node ≠ target) →
      Path (links.remove item) head before target := by
    intro target step notItem notTarget
    apply path_retarget links _ head item target before front frontNodup
    · intro node member notLast
      rw [remove_next, if_neg (notFront node member), if_neg notLast]
    · intro node member
      rw [remove_prev, if_neg (notFront node (List.mem_cons_of_mem _ member)),
        step, if_neg (notTarget node member)]
    · rw [remove_next, if_neg prevNotItem, if_pos rfl, step]
    · rw [remove_prev, if_neg notItem, if_pos step.symm]
  cases after with
  | nil =>
      exact {
        nodup := by
          rw [List.append_nil]
          exact frontNodup
        path := by
          rw [List.append_nil]
          apply led head following (notFront head List.mem_cons_self)
          intro node member same
          rw [same] at member
          exact headFresh (List.mem_append_left _ member) }
  | cons second rest =>
      have secondFresh := (List.nodup_cons.mp afterNodup).1
      exact {
        nodup := by
          rw [List.nodup_cons, List.nodup_append]
          refine ⟨?_, beforeNodup, afterNodup, ?_⟩
          · intro member
            rcases List.mem_append.mp member with early | late
            · exact (List.nodup_cons.mp frontNodup).1 early
            · exact apart head List.mem_cons_self head late rfl
          · intro node early later late
            exact apart node (List.mem_cons_of_mem _ early) later late
        path := by
          rw [path_append]
          constructor
          · apply led second following (notAfter second List.mem_cons_self)
            intro node member
            exact apart node (List.mem_cons_of_mem _ member) second
              List.mem_cons_self
          · apply path_congr links _ second head rest back.2
            · intro node member
              have notPrev : node ≠ links.prev item :=
                (apart _ prevMem node member).symm
              rw [remove_next, if_neg (notAfter node member), if_neg notPrev]
            · intro node member
              have notSecond : node ≠ links.next item := by
                rw [following]
                rcases List.mem_append.mp member with inside | single
                · intro same
                  change node = second at same
                  rw [same] at inside
                  exact secondFresh inside
                · rw [List.mem_singleton.mp single]
                  exact apart head List.mem_cons_self second List.mem_cons_self
              have notItem : node ≠ item := by
                rcases List.mem_append.mp member with inside | single
                · exact notAfter node (List.mem_cons_of_mem _ inside)
                · rw [List.mem_singleton.mp single]
                  exact notFront head List.mem_cons_self
              rw [remove_prev, if_neg notItem, if_neg notSecond] }

/-- Insertion changes no other link than those of the circle and its node. -/
theorem Circle.alone_insert {links : Links α} {head : α} {items : List α}
    (circle : Circle links head items) (node other : α)
    (fresh : node ∉ head :: items) (outside : other ∉ head :: items)
    (apart : other ≠ node) (alone : Alone links other) :
    Alone (links.insert node (links.prev head) head) other := by
  have last := path_prev_mem links head head items circle.path
  have apartHead : node ≠ head := by
    intro same
    rw [same] at fresh
    exact fresh List.mem_cons_self
  have otherLast : other ≠ links.prev head := by
    intro same
    rw [same] at outside
    exact outside last
  have otherHead : other ≠ head := by
    intro same
    rw [same] at outside
    exact outside List.mem_cons_self
  constructor
  · rw [insert_next, if_neg otherLast, if_neg apart]
    exact alone.1
  · rw [insert_prev _ _ _ _ apartHead, if_neg otherHead, if_neg apart]
    exact alone.2

theorem Circle.alone_remove {links : Links α} {head : α} {before after : List α}
    {item : α} (circle : Circle links head (before ++ item :: after))
    (other : α) (outside : other ∉ head :: (before ++ item :: after))
    (alone : Alone links other) : Alone (links.remove item) other := by
  obtain ⟨front, back⟩ :=
    (path_append links head head item before after).mp circle.path
  have notItem : other ≠ item := by
    intro same
    rw [same] at outside
    exact outside
      (List.mem_cons_of_mem _ (List.mem_append_right _ List.mem_cons_self))
  have notPrev : other ≠ links.prev item := by
    intro same
    apply outside
    rw [same]
    rcases List.mem_cons.mp (path_prev_mem links head item before front) with
      atHead | inside
    · rw [atHead]
      exact List.mem_cons_self
    · exact List.mem_cons_of_mem _ (List.mem_append_left _ inside)
  have notNext : other ≠ links.next item := by
    intro same
    apply outside
    rw [same, path_next links item head after back]
    cases after with
    | nil => exact List.mem_cons_self
    | cons second rest =>
        exact List.mem_cons_of_mem _ (List.mem_append_right _
          (List.mem_cons_of_mem _ List.mem_cons_self))
  constructor
  · rw [remove_next, if_neg notItem, if_neg notPrev]
    exact alone.1
  · rw [remove_prev, if_neg notItem, if_neg notNext]
    exact alone.2

end XR872.Circles
