/-
A row of blocks that fills a space, each of them free or used.

In a settled row no two free blocks are neighbours, so every free range lies in
one block. Carving a used block out of a free one and giving a used block back
keep the row settled, and keep what it fills.
-/

import Mathlib

namespace XR872.Arenas

structure Block where
  size : Nat
  used : Bool
deriving DecidableEq, Repr

def total (blocks : List Block) : Nat := (blocks.map Block.size).sum

@[simp] theorem total_nil : total [] = 0 := rfl

@[simp] theorem total_cons (block : Block) (blocks : List Block) :
    total (block :: blocks) = block.size + total blocks := rfl

@[simp] theorem total_append (left right : List Block) :
    total (left ++ right) = total left + total right := by
  unfold total
  rw [List.map_append, List.sum_append]

/-- The addresses and sizes of the blocks of a kind, when the row begins at
`base`. -/
def places (used : Bool) : Nat → List Block → List (Nat × Nat)
  | _, [] => []
  | base, block :: rest =>
      if block.used = used then
        (base, block.size) :: places used (base + block.size) rest
      else places used (base + block.size) rest

@[simp] theorem places_nil (used : Bool) (base : Nat) :
    places used base [] = [] := rfl

@[simp] theorem places_cons_same (used : Bool) (base size : Nat)
    (rest : List Block) :
    places used base (⟨size, used⟩ :: rest) =
      (base, size) :: places used (base + size) rest := by
  simp [places]

@[simp] theorem places_cons_other (used : Bool) (base size : Nat)
    (rest : List Block) :
    places used base (⟨size, !used⟩ :: rest) =
      places used (base + size) rest := by
  cases used <;> simp [places]

@[simp] theorem places_cons_used (base size : Nat) (rest : List Block) :
    places false base (⟨size, true⟩ :: rest) =
      places false (base + size) rest := places_cons_other false base size rest

@[simp] theorem places_cons_free (base size : Nat) (rest : List Block) :
    places true base (⟨size, false⟩ :: rest) =
      places true (base + size) rest := places_cons_other true base size rest

theorem places_append (used : Bool) (base : Nat) (left right : List Block) :
    places used base (left ++ right) =
      places used base left ++ places used (base + total left) right := by
  induction left generalizing base with
  | nil => simp
  | cons block rest ih =>
      have tail := ih (base + block.size)
      rw [Nat.add_assoc] at tail
      by_cases same : block.used = used
      · simp [places, same, tail]
      · simp [places, same, tail]

theorem places_within {used : Bool} {base : Nat} {blocks : List Block}
    {place : Nat × Nat} (member : place ∈ places used base blocks) :
    base ≤ place.1 ∧ place.1 + place.2 ≤ base + total blocks := by
  induction blocks generalizing base with
  | nil => cases member
  | cons block rest ih =>
      rw [total_cons]
      rw [places] at member
      split at member
      · cases List.mem_cons.mp member with
        | inl here =>
            rw [here]
            dsimp only
            omega
        | inr later =>
            have within := ih later
            omega
      · have within := ih member
        omega

/-- A block of the row is split off with what is before and behind it. -/
theorem places_split {used : Bool} {base : Nat} {blocks : List Block}
    {place : Nat × Nat} (member : place ∈ places used base blocks) :
    ∃ left right, blocks = left ++ ⟨place.2, used⟩ :: right ∧
      place.1 = base + total left := by
  induction blocks generalizing base with
  | nil => cases member
  | cons block rest ih =>
      have later (inRest : place ∈ places used (base + block.size) rest) :
          ∃ left right, block :: rest = left ++ ⟨place.2, used⟩ :: right ∧
            place.1 = base + total left := by
        obtain ⟨left, right, split, address⟩ := ih inRest
        exact ⟨block :: left, right, by rw [split, List.cons_append],
          by rw [address, total_cons, Nat.add_assoc]⟩
      rw [places] at member
      split at member
      · next same =>
          cases List.mem_cons.mp member with
          | inl here =>
              exact ⟨[], rest, by rw [here, ← same]; rfl, by rw [here]; rfl⟩
          | inr inRest => exact later inRest
      · exact later member

theorem length_places_le (used : Bool) (base : Nat) (blocks : List Block) :
    (places used base blocks).length ≤ blocks.length := by
  induction blocks generalizing base with
  | nil => simp
  | cons block rest ih =>
      have tail := ih (base + block.size)
      rw [places]
      split
      · simpa using tail
      · rw [List.length_cons]
        omega

/-! ### What is free -/

def freeTotal (blocks : List Block) : Nat :=
  (blocks.map fun block => if block.used then 0 else block.size).sum

@[simp] theorem freeTotal_nil : freeTotal [] = 0 := rfl

@[simp] theorem freeTotal_cons (size : Nat) (used : Bool)
    (blocks : List Block) :
    freeTotal (⟨size, used⟩ :: blocks) =
      (if used then 0 else size) + freeTotal blocks := rfl

@[simp] theorem freeTotal_append (left right : List Block) :
    freeTotal (left ++ right) = freeTotal left + freeTotal right := by
  unfold freeTotal
  rw [List.map_append, List.sum_append]

theorem used_add_freeTotal (base : Nat) (blocks : List Block) :
    ((places true base blocks).map Prod.snd).sum + freeTotal blocks =
      total blocks := by
  induction blocks generalizing base with
  | nil => rfl
  | cons block rest ih =>
      obtain ⟨size, used⟩ := block
      have tail := ih (base + size)
      cases used with
      | false => simp; omega
      | true => simp; omega

/-! ### Every block is of some size -/

def Filled (blocks : List Block) : Prop := ∀ block ∈ blocks, 0 < block.size

theorem filled_append (left right : List Block) :
    Filled (left ++ right) ↔ Filled left ∧ Filled right :=
  List.forall_mem_append

theorem filled_cons (block : Block) (blocks : List Block) :
    Filled (block :: blocks) ↔ 0 < block.size ∧ Filled blocks :=
  List.forall_mem_cons

/-- A block of one kind is not where a block of the row begins that is
elsewhere in it. -/
theorem address_lt_of_before {used : Bool} {base : Nat} {left : List Block}
    {place : Nat × Nat} (filled : Filled left)
    (member : place ∈ places used base left) :
    place.1 < base + total left := by
  obtain ⟨before, behind, split, address⟩ := places_split member
  rw [split, filled_append, filled_cons] at filled
  have positive := filled.2.1
  rw [split, total_append, total_cons, address]
  dsimp only at positive ⊢
  omega

theorem places_sorted (used : Bool) (base : Nat) (blocks : List Block)
    (filled : Filled blocks) :
    ((places used base blocks).map Prod.fst).Pairwise (· < ·) := by
  induction blocks generalizing base with
  | nil => exact List.Pairwise.nil
  | cons block rest ih =>
      rw [filled_cons] at filled
      have tail := ih (base + block.size) filled.2
      rw [places]
      split
      · rw [List.map_cons, List.pairwise_cons]
        constructor
        · intro address member
          obtain ⟨place, inRest, same⟩ := List.mem_map.mp member
          have within := places_within inRest
          have positive := filled.1
          dsimp only at within ⊢
          omega
        · exact tail
      · exact tail

theorem used_apart_free {base : Nat} {blocks : List Block}
    {used free : Nat × Nat}
    (isUsed : used ∈ places true base blocks)
    (isFree : free ∈ places false base blocks) :
    used.1 + used.2 ≤ free.1 ∨ free.1 + free.2 ≤ used.1 := by
  obtain ⟨left, right, split, address⟩ := places_split isUsed
  rw [split, places_append, places_cons_used, List.mem_append] at isFree
  cases isFree with
  | inl before =>
      have within := places_within before
      right
      omega
  | inr behind =>
      have within := places_within behind
      left
      omega

theorem used_apart_used {base : Nat} {blocks : List Block}
    {first second : Nat × Nat} (differ : first.1 ≠ second.1)
    (isFirst : first ∈ places true base blocks)
    (isSecond : second ∈ places true base blocks) :
    first.1 + first.2 ≤ second.1 ∨ second.1 + second.2 ≤ first.1 := by
  obtain ⟨left, right, split, address⟩ := places_split isFirst
  rw [split, places_append, places_cons_same, List.mem_append,
    List.mem_cons] at isSecond
  rcases isSecond with before | here | behind
  · have within := places_within before
    right
    omega
  · rw [here] at differ
    exact absurd address differ
  · have within := places_within behind
    left
    omega

/-! ### Settled rows -/

def Settled (blocks : List Block) : Prop :=
  blocks.IsChain fun left right => left.used = true ∨ right.used = true

theorem free_behind {address size : Nat} {right : List Block}
    (settled : Settled (⟨size, false⟩ :: right)) (filled : Filled right)
    (place : Nat × Nat) (member : place ∈ places false address right) :
    address < place.1 := by
  cases right with
  | nil => cases member
  | cons next rest =>
      obtain ⟨nextSize, used⟩ := next
      have neighbours := (List.isChain_cons_cons.mp settled).1
      simp only [Bool.false_eq_true, false_or] at neighbours
      subst neighbours
      rw [places_cons_used] at member
      have within := places_within member
      have positive := ((filled_cons _ _).mp filled).1
      dsimp only at positive
      omega

theorem exists_free_of_gap (base : Nat) (blocks : List Block)
    (settled : Settled blocks) (start size : Nat) (positive : 0 < size)
    (from_ : base ≤ start) (to_ : start + size ≤ base + total blocks)
    (apart : ∀ place ∈ places true base blocks,
      start + size ≤ place.1 ∨ place.1 + place.2 ≤ start) :
    ∃ place ∈ places false base blocks,
      place.1 ≤ start ∧ start + size ≤ place.1 + place.2 := by
  induction blocks generalizing base with
  | nil =>
      rw [total_nil] at to_
      omega
  | cons block rest ih =>
      obtain ⟨blockSize, used⟩ := block
      rw [total_cons] at to_
      dsimp only at to_
      by_cases later : base + blockSize ≤ start
      · have inRest := ih (base + blockSize) (List.IsChain.tail settled) later
          (by omega) (by
            intro place member
            apply apart place
            cases used with
            | false => simpa using member
            | true => simpa using Or.inr member)
        obtain ⟨place, member, inside⟩ := inRest
        refine ⟨place, ?_, inside⟩
        cases used with
        | false => simpa using Or.inr member
        | true => simpa using member
      · cases used with
        | true =>
            have own := apart (base, blockSize) (by simp)
            dsimp only at own
            omega
        | false =>
            refine ⟨(base, blockSize), by simp, from_, ?_⟩
            dsimp only
            by_cases whole : start + size ≤ base + blockSize
            · exact whole
            · exfalso
              cases rest with
              | nil =>
                  rw [total_nil] at to_
                  omega
              | cons next more =>
                  obtain ⟨nextSize, nextUsed⟩ := next
                  have neighbours := (List.isChain_cons_cons.mp settled).1
                  simp only [Bool.false_eq_true, false_or] at neighbours
                  subst neighbours
                  have nextApart := apart (base + blockSize, nextSize) (by simp)
                  dsimp only at nextApart
                  omega

theorem exists_first_fit (wanted base : Nat) (blocks : List Block)
    (found : ∃ place ∈ places false base blocks, wanted ≤ place.2) :
    ∃ left size right, blocks = left ++ ⟨size, false⟩ :: right ∧
      wanted ≤ size ∧ ∀ place ∈ places false base left, place.2 < wanted := by
  induction blocks generalizing base with
  | nil =>
      obtain ⟨place, member, _⟩ := found
      cases member
  | cons block rest ih =>
      obtain ⟨size, used⟩ := block
      have later (inRest : ∃ place ∈ places false (base + size) rest,
            wanted ≤ place.2)
          (small : used = false → size < wanted) :
          ∃ left size' right, ⟨size, used⟩ :: rest =
            left ++ ⟨size', false⟩ :: right ∧ wanted ≤ size' ∧
            ∀ place ∈ places false base left, place.2 < wanted := by
        obtain ⟨left, size', right, split, fits, others⟩ := ih _ inRest
        refine ⟨⟨size, used⟩ :: left, size', right, ?_, fits, ?_⟩
        · rw [split, List.cons_append]
        · intro place member
          cases used with
          | false =>
              rw [places_cons_same, List.mem_cons] at member
              cases member with
              | inl here => rw [here]; exact small rfl
              | inr behind => exact others place behind
          | true =>
              rw [places_cons_used] at member
              exact others place member
      cases used with
      | true =>
          rw [places_cons_used] at found
          exact later found (fun free => by cases free)
      | false =>
          by_cases fits : wanted ≤ size
          · exact ⟨[], size, rest, rfl, fits, fun place member => by
              cases member⟩
          · apply later _ (fun _ => Nat.lt_of_not_le fits)
            obtain ⟨place, member, large⟩ := found
            rw [places_cons_same, List.mem_cons] at member
            cases member with
            | inl here =>
                rw [here] at large
                exact absurd large fits
            | inr behind => exact ⟨place, behind, large⟩

theorem single_of_unused (base : Nat) (blocks : List Block)
    (settled : Settled blocks) (unused : places true base blocks = []) :
    blocks = [] ∨ ∃ size, blocks = [⟨size, false⟩] := by
  cases blocks with
  | nil => exact Or.inl rfl
  | cons block rest =>
      obtain ⟨size, used⟩ := block
      cases used with
      | true => simp at unused
      | false =>
          cases rest with
          | nil => exact Or.inr ⟨size, rfl⟩
          | cons next more =>
              obtain ⟨nextSize, nextUsed⟩ := next
              have neighbours := (List.isChain_cons_cons.mp settled).1
              simp only [Bool.false_eq_true, false_or] at neighbours
              subst neighbours
              simp at unused

/-! ### Carving a used block out of a free one -/

/-- The blocks that a free block becomes, with those behind it; what is left
stays with the used block unless it is more than `least`. -/
def carve (least wanted size : Nat) (right : List Block) : List Block :=
  if least < size - wanted then
    ⟨wanted, true⟩ :: ⟨size - wanted, false⟩ :: right
  else ⟨size, true⟩ :: right

section Carve

variable (least wanted size : Nat) (right : List Block)

theorem total_carve (fits : wanted ≤ size) :
    total (carve least wanted size right) = size + total right := by
  unfold carve
  split
  · simp only [total_cons]
    omega
  · rfl

theorem freeTotal_carve (fits : wanted ≤ size) :
    freeTotal (carve least wanted size right) +
        (if least < size - wanted then wanted else size) =
      size + freeTotal right := by
  unfold carve
  split
  · simp
    omega
  · simp
    omega

theorem filled_carve (positive : 0 < wanted) (fits : wanted ≤ size)
    (filled : Filled right) : Filled (carve least wanted size right) := by
  unfold carve
  split
  · rw [filled_cons, filled_cons]
    dsimp only
    exact ⟨positive, by omega, filled⟩
  · rw [filled_cons]
    dsimp only
    exact ⟨by omega, filled⟩

theorem dvd_carve (unit : Nat) (ofWanted : unit ∣ wanted) (ofSize : unit ∣ size)
    (ofRight : ∀ block ∈ right, unit ∣ block.size) :
    ∀ block ∈ carve least wanted size right, unit ∣ block.size := by
  unfold carve
  split
  · rw [List.forall_mem_cons, List.forall_mem_cons]
    exact ⟨ofWanted, Nat.dvd_sub ofSize ofWanted, ofRight⟩
  · rw [List.forall_mem_cons]
    exact ⟨ofSize, ofRight⟩

theorem settled_carve (left : List Block)
    (settled : Settled (left ++ ⟨size, false⟩ :: right)) :
    Settled (left ++ carve least wanted size right) := by
  unfold Settled at settled ⊢
  rw [List.isChain_append] at settled ⊢
  obtain ⟨before, here, _⟩ := settled
  refine ⟨before, ?_, ?_⟩
  · unfold carve
    split
    · rw [List.isChain_cons_cons]
      refine ⟨Or.inl rfl, ?_⟩
      cases right with
      | nil => exact List.IsChain.singleton _
      | cons next more =>
          rw [List.isChain_cons_cons] at here ⊢
          exact here
    · cases right with
      | nil => exact List.IsChain.singleton _
      | cons next more =>
          rw [List.isChain_cons_cons] at here ⊢
          exact ⟨Or.inl rfl, here.2⟩
  · intro block isLast first isFirst
    unfold carve at isFirst
    split at isFirst
    · cases isFirst
      exact Or.inr rfl
    · cases isFirst
      exact Or.inr rfl

end Carve

/-! ### Giving a used block back -/

def absorb (size : Nat) : List Block → List Block
  | ⟨more, false⟩ :: right => ⟨size + more, false⟩ :: right
  | right => ⟨size, false⟩ :: right

def release (left : List Block) (size : Nat) (right : List Block) :
    List Block :=
  match left.getLast? with
  | some ⟨before, false⟩ => left.dropLast ++ absorb (before + size) right
  | _ => left ++ absorb size right

theorem release_nil (size : Nat) (right : List Block) :
    release [] size right = absorb size right := rfl

theorem release_free (left : List Block) (before size : Nat)
    (right : List Block) :
    release (left ++ [⟨before, false⟩]) size right =
      left ++ absorb (before + size) right := by
  unfold release
  rw [List.getLast?_concat, List.dropLast_concat]

theorem release_used (left : List Block) (before size : Nat)
    (right : List Block) :
    release (left ++ [⟨before, true⟩]) size right =
      left ++ ⟨before, true⟩ :: absorb size right := by
  unfold release
  rw [List.getLast?_concat, List.append_assoc]
  rfl

theorem row_cases {property : List Block → Prop} (left : List Block)
    (nil : property [])
    (free : ∀ blocks size, property (blocks ++ [⟨size, false⟩]))
    (used : ∀ blocks size, property (blocks ++ [⟨size, true⟩])) :
    property left := by
  cases List.eq_nil_or_concat left with
  | inl empty => rw [empty]; exact nil
  | inr concat =>
      obtain ⟨blocks, ⟨size, isUsed⟩, same⟩ := concat
      rw [same, List.concat_eq_append]
      cases isUsed with
      | false => exact free blocks size
      | true => exact used blocks size

@[simp] theorem absorb_nil (size : Nat) : absorb size [] = [⟨size, false⟩] := rfl

@[simp] theorem absorb_free (size more : Nat) (right : List Block) :
    absorb size (⟨more, false⟩ :: right) = ⟨size + more, false⟩ :: right := rfl

@[simp] theorem absorb_used (size more : Nat) (right : List Block) :
    absorb size (⟨more, true⟩ :: right) =
      ⟨size, false⟩ :: ⟨more, true⟩ :: right := rfl

theorem absorb_cases {property : List Block → Prop} (right : List Block)
    (nil : property [])
    (free : ∀ size blocks, property (⟨size, false⟩ :: blocks))
    (used : ∀ size blocks, property (⟨size, true⟩ :: blocks)) :
    property right := by
  cases right with
  | nil => exact nil
  | cons block blocks =>
      obtain ⟨size, isUsed⟩ := block
      cases isUsed with
      | false => exact free size blocks
      | true => exact used size blocks

theorem total_absorb (size : Nat) (right : List Block) :
    total (absorb size right) = size + total right := by
  induction right using absorb_cases with
  | nil => simp
  | free more blocks => simp [Nat.add_assoc]
  | used more blocks => simp

theorem total_release (left : List Block) (size : Nat) (right : List Block) :
    total (release left size right) = total left + (size + total right) := by
  induction left using row_cases with
  | nil => rw [release_nil, total_absorb, total_nil, Nat.zero_add]
  | free blocks before =>
      rw [release_free, total_append, total_absorb, total_append, total_cons,
        total_nil]
      dsimp only
      omega
  | used blocks before =>
      rw [release_used, total_append, total_cons, total_absorb, total_append,
        total_cons, total_nil]
      dsimp only
      omega

theorem freeTotal_absorb (size : Nat) (right : List Block) :
    freeTotal (absorb size right) = size + freeTotal right := by
  induction right using absorb_cases with
  | nil => simp
  | free more blocks => simp [Nat.add_assoc]
  | used more blocks => simp

theorem freeTotal_release (left : List Block) (size : Nat)
    (right : List Block) :
    freeTotal (release left size right) =
      freeTotal left + freeTotal right + size := by
  induction left using row_cases with
  | nil =>
      rw [release_nil, freeTotal_absorb]
      simp
      omega
  | free blocks before =>
      rw [release_free]
      simp [freeTotal_absorb]
      omega
  | used blocks before =>
      rw [release_used]
      simp [freeTotal_absorb]
      omega

theorem filled_absorb (size : Nat) (positive : 0 < size) (right : List Block)
    (filled : Filled right) : Filled (absorb size right) := by
  induction right using absorb_cases with
  | nil => simpa [filled_cons] using And.intro positive filled
  | free more blocks =>
      rw [filled_cons] at filled
      rw [absorb_free, filled_cons]
      dsimp only
      exact ⟨by omega, filled.2⟩
  | used more blocks =>
      rw [absorb_used, filled_cons]
      exact ⟨positive, filled⟩

theorem filled_release (left : List Block) (size : Nat) (positive : 0 < size)
    (right : List Block) (before : Filled left) (behind : Filled right) :
    Filled (release left size right) := by
  induction left using row_cases with
  | nil =>
      rw [release_nil]
      exact filled_absorb size positive right behind
  | free blocks more =>
      rw [filled_append] at before
      rw [release_free, filled_append]
      exact ⟨before.1, filled_absorb _ (by omega) right behind⟩
  | used blocks more =>
      rw [filled_append] at before
      rw [release_used, filled_append, filled_cons]
      rw [filled_cons] at before
      exact ⟨before.1, before.2.1, filled_absorb size positive right behind⟩

theorem dvd_absorb (unit size : Nat) (ofSize : unit ∣ size)
    (right : List Block) (ofRight : ∀ block ∈ right, unit ∣ block.size) :
    ∀ block ∈ absorb size right, unit ∣ block.size := by
  induction right using absorb_cases with
  | nil => simpa using ofSize
  | free more blocks =>
      rw [List.forall_mem_cons] at ofRight
      rw [absorb_free, List.forall_mem_cons]
      exact ⟨Nat.dvd_add ofSize ofRight.1, ofRight.2⟩
  | used more blocks =>
      rw [absorb_used, List.forall_mem_cons]
      exact ⟨ofSize, ofRight⟩

theorem dvd_release (unit : Nat) (left : List Block) (size : Nat)
    (right : List Block) (ofLeft : ∀ block ∈ left, unit ∣ block.size)
    (ofSize : unit ∣ size) (ofRight : ∀ block ∈ right, unit ∣ block.size) :
    ∀ block ∈ release left size right, unit ∣ block.size := by
  induction left using row_cases with
  | nil =>
      rw [release_nil]
      exact dvd_absorb unit size ofSize right ofRight
  | free blocks before =>
      rw [List.forall_mem_append, List.forall_mem_singleton] at ofLeft
      rw [release_free, List.forall_mem_append]
      exact ⟨ofLeft.1, dvd_absorb unit _ (Nat.dvd_add ofLeft.2 ofSize) right
        ofRight⟩
  | used blocks before =>
      rw [List.forall_mem_append, List.forall_mem_singleton] at ofLeft
      rw [release_used, List.forall_mem_append, List.forall_mem_cons]
      exact ⟨ofLeft.1, ofLeft.2, dvd_absorb unit size ofSize right ofRight⟩

theorem settled_absorb (size : Nat) (right : List Block)
    (settled : Settled right) : Settled (absorb size right) := by
  unfold Settled at settled ⊢
  induction right using absorb_cases with
  | nil => exact List.IsChain.singleton _
  | free more blocks =>
      rw [absorb_free]
      cases blocks with
      | nil => exact List.IsChain.singleton _
      | cons next later =>
          rw [List.isChain_cons_cons] at settled ⊢
          exact settled
  | used more blocks =>
      rw [absorb_used, List.isChain_cons_cons]
      exact ⟨Or.inr rfl, settled⟩

/-- What comes before a used block comes before a free one as well, unless it
ends with a free block. -/
theorem settled_release (left : List Block) (size : Nat) (right : List Block)
    (settled : Settled (left ++ ⟨size, true⟩ :: right)) :
    Settled (release left size right) := by
  have behind : Settled right := (List.isChain_append.mp settled).2.1.tail
  induction left using row_cases with
  | nil =>
      rw [release_nil]
      exact settled_absorb size right behind
  | free blocks before =>
      rw [release_free]
      unfold Settled at settled ⊢
      rw [List.append_assoc, List.isChain_append] at settled
      rw [List.isChain_append]
      refine ⟨settled.1, settled_absorb _ right behind, ?_⟩
      intro block isLast first isFirst
      exact Or.inl (by simpa using settled.2.2 block isLast _ rfl)
  | used blocks before =>
      rw [release_used]
      have whole := settled_absorb size right behind
      unfold Settled at settled whole ⊢
      rw [List.append_assoc, List.isChain_append] at settled
      rw [List.isChain_append]
      refine ⟨settled.1, ?_, settled.2.2⟩
      apply List.IsChain.cons whole
      intro block isFirst
      exact Or.inl rfl

/-- The used blocks that are left are those there were, but for the one given
back. -/
theorem used_release (base : Nat) (left : List Block) (size : Nat)
    (right : List Block) :
    places true base (release left size right) =
      places true base left ++
        places true (base + total left + size) right := by
  have behind (address size : Nat) :
      places true address (absorb size right) =
        places true (address + size) right := by
    induction right using absorb_cases with
    | nil => simp
    | free more blocks => simp [Nat.add_assoc]
    | used more blocks => simp
  induction left using row_cases with
  | nil => simp [release_nil, behind]
  | free blocks before =>
      rw [release_free, places_append, places_append, behind]
      simp [Nat.add_assoc]
  | used blocks before =>
      rw [release_used, places_append, places_append, places_cons_same, behind]
      simp [Nat.add_assoc]

end XR872.Arenas
