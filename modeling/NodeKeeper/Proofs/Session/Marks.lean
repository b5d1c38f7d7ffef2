import Mathlib.Data.List.Basic

/-!
# Lists with marks

Some places of a list are marked, and a second list has nothing but what belongs to the marked
places, in their order. A marked place of the first list is found again in the second one at its
rank, and whatever becomes of the first list at one place becomes of the second one there.

## Main definitions

* `rank` — where a place comes to stand if those before it that are not marked are struck out.
* `Sifted` — a list has what belongs to the marked places of another one.

## Main results

* `rank_inj` — marked places keep apart.
* `Sifted.exists_of_marked` — what stands at a marked place, and what belongs to it.
* `Sifted.modify`, `Sifted.modify_left` — a change at a marked place, and at another one.
* `Sifted.append` — new places at the end.
-/

namespace NodeKeeper

/-! ## Ranks -/

/-- Where a place comes to stand if those before it that are not marked are struck out. -/
def rank : List Bool → Nat → Nat
  | [], _ | _, 0 => 0
  | b :: bs, i + 1 => b.toNat + rank bs i

/-- Before the first place nothing is struck out. -/
@[simp] lemma rank_zero (bs : List Bool) : rank bs 0 = 0 := by
  cases bs <;> rfl

/-- A place moves up by one for a marked place before it, and not for one that is struck out. -/
@[simp] lemma rank_cons_succ (b : Bool) (bs : List Bool) (i : Nat) :
    rank (b :: bs) (i + 1) = b.toNat + rank bs i := rfl

/-- Marks at the end do not move the places before them. -/
lemma rank_append {bs : List Bool} {i : Nat} (hi : i ≤ bs.length) (bs' : List Bool) :
    rank (bs ++ bs') i = rank bs i := by
  induction bs generalizing i with
  | nil =>
    obtain rfl : i = 0 := Nat.le_zero.1 hi
    simp
  | cons b bs ih =>
    cases i with
    | zero => simp
    | succ i => simp [ih (Nat.le_of_succ_le_succ hi)]

/-- The next place after all. -/
lemma rank_concat (bs : List Bool) (b : Bool) :
    rank (bs ++ [b]) (bs.length + 1) = rank bs bs.length + b.toNat := by
  induction bs with
  | nil => simp
  | cons a bs ih => simp [ih, Nat.add_assoc]

/-- A marked place stands before all that come after it.

**Proof sketch.** The induction is on the marks, along with both places. -/
lemma rank_lt_rank {bs : List Bool} {i j : Nat} (hi : bs[i]? = some true) (hij : i < j) :
    rank bs i < rank bs j := by
  induction bs generalizing i j with
  | nil => simp at hi
  | cons b bs ih =>
    obtain ⟨j, rfl⟩ : ∃ j', j = j' + 1 := ⟨j - 1, by omega⟩
    cases i with
    | zero =>
      obtain rfl : b = true := by simpa using hi
      rw [rank_zero, rank_cons_succ, Bool.toNat_true]
      omega
    | succ i => simpa using ih (by simpa using hi) (Nat.lt_of_succ_lt_succ hij)

/-- Marked places keep apart. -/
lemma rank_inj {bs : List Bool} {i j : Nat} (hi : bs[i]? = some true) (hj : bs[j]? = some true) :
    rank bs i = rank bs j ↔ i = j := by
  refine ⟨fun h => ?_, fun h => by rw [h]⟩
  rcases Nat.lt_trichotomy i j with hij | hij | hij
  · exact absurd h (Nat.ne_of_lt (rank_lt_rank hi hij))
  · exact hij
  · exact absurd h (Nat.ne_of_gt (rank_lt_rank hj hij))

/-! ## Sifted lists -/

variable {α β : Type} {P : α → Prop} {R S : α → β → Prop} {bs : List Bool} {xs : List α}
  {ys : List β} {i : Nat}

/-- The second list has what belongs to the marked places of the first one; the others are as they
should be. -/
inductive Sifted (P : α → Prop) (R : α → β → Prop) : List Bool → List α → List β → Prop
  | nil : Sifted P R [] [] []
  | keep {x : α} {y : β} {bs xs ys} (h : R x y) (H : Sifted P R bs xs ys) :
      Sifted P R (true :: bs) (x :: xs) (y :: ys)
  | drop {x : α} {bs xs ys} (h : P x) (H : Sifted P R bs xs ys) :
      Sifted P R (false :: bs) (x :: xs) ys

namespace Sifted

/-- There is a mark for each place of the first list. -/
lemma length_marks (H : Sifted P R bs xs ys) : bs.length = xs.length := by
  induction H with
  | nil => rfl
  | keep _ _ ih | drop _ _ ih => rw [List.length_cons, List.length_cons, ih]

/-- The second list has as many places as there are marks. -/
lemma length_eq_count (H : Sifted P R bs xs ys) : ys.length = bs.count true := by
  induction H with
  | nil => rfl
  | keep _ _ ih | drop _ _ ih => simp [ih]

/-- The marks, where what is marked can be told. -/
lemma marks_eq (H : Sifted P R bs xs ys) {p : α → Bool} (hP : ∀ x, P x → p x = false)
    (hR : ∀ x y, R x y → p x = true) : bs = xs.map p := by
  induction H with
  | nil => rfl
  | keep h _ ih => rw [List.map_cons, hR _ _ h, ← ih]
  | drop h _ ih => rw [List.map_cons, hP _ h, ← ih]

/-- What belongs together still does in a weaker sense. -/
lemma mono (H : Sifted P R bs xs ys) (hRS : ∀ x y, R x y → S x y) : Sifted P S bs xs ys := by
  induction H with
  | nil => exact .nil
  | keep h _ ih => exact .keep (hRS _ _ h) ih
  | drop h _ ih => exact .drop h ih

/-- The places that are left belong to marked ones. -/
lemma forall_mem (H : Sifted P R bs xs ys) : ∀ y ∈ ys, ∃ x ∈ xs, R x y := by
  induction H with
  | nil => simp
  | keep h _ ih =>
    intro y hy
    rcases List.mem_cons.1 hy with rfl | hy
    · exact ⟨_, List.mem_cons_self, h⟩
    · obtain ⟨x, hx, hxy⟩ := ih y hy
      exact ⟨x, List.mem_cons_of_mem _ hx, hxy⟩
  | drop _ _ ih =>
    intro y hy
    obtain ⟨x, hx, hxy⟩ := ih y hy
    exact ⟨x, List.mem_cons_of_mem _ hx, hxy⟩

/-- What stands at a marked place, and what belongs to it.

**Proof sketch.** Induction on how the second list was sifted out of the first one. The rank of a
place grows by one with every place before it that was kept. -/
lemma exists_of_marked (H : Sifted P R bs xs ys) (hi : bs[i]? = some true) :
    ∃ x y, xs[i]? = some x ∧ ys[rank bs i]? = some y ∧ R x y := by
  induction H generalizing i with
  | nil => simp at hi
  | keep h _ ih =>
    cases i with
    | zero => exact ⟨_, _, by simp, by simp, h⟩
    | succ i =>
      obtain ⟨x, y, hx, hy, hxy⟩ := ih (by simpa using hi)
      exact ⟨x, y, by simpa using hx, by simpa [Nat.add_comm] using hy, hxy⟩
  | drop _ _ ih =>
    cases i with
    | zero => simp at hi
    | succ i =>
      obtain ⟨x, y, hx, hy, hxy⟩ := ih (by simpa using hi)
      exact ⟨x, y, by simpa using hx, by simpa using hy, hxy⟩

/-- What stands at a place that is not marked. -/
lemma of_unmarked (H : Sifted P R bs xs ys) (hi : bs[i]? ≠ some true) {x : α}
    (hx : xs[i]? = some x) : P x := by
  induction H generalizing i with
  | nil => simp at hx
  | keep _ _ ih =>
    cases i with
    | zero => simp at hi
    | succ i => exact ih (by simpa using hi) (by simpa using hx)
  | drop h _ ih =>
    cases i with
    | zero =>
      obtain rfl := Option.some.inj hx
      exact h
    | succ i => exact ih (by simpa using hi) (by simpa using hx)

/-- A change at a marked place, and one of what belongs to it.

**Proof sketch.** The induction is on how the marks sift. The rank counts the marked places that are
passed over. -/
lemma modify (H : Sifted P R bs xs ys) (hi : bs[i]? = some true) {f : α → α} {g : β → β}
    (hfg : ∀ x y, R x y → R (f x) (g y)) :
    Sifted P R bs (xs.modify i f) (ys.modify (rank bs i) g) := by
  induction H generalizing i with
  | nil => simp at hi
  | keep h H ih =>
    cases i with
    | zero => simpa using H.keep (hfg _ _ h)
    | succ i => simpa [Nat.add_comm] using (ih (by simpa using hi)).keep h
  | drop h H ih =>
    cases i with
    | zero => simp at hi
    | succ i => simpa using (ih (by simpa using hi)).drop h

/-- A change at a place that is not marked.

**Proof sketch.** The induction is on how the marks sift. A place that is not marked has nothing
that belongs to it. -/
lemma modify_left (H : Sifted P R bs xs ys) (hi : bs[i]? ≠ some true) {f : α → α}
    (hf : ∀ x, P x → P (f x)) : Sifted P R bs (xs.modify i f) ys := by
  induction H generalizing i with
  | nil => simpa using Sifted.nil
  | keep h H ih =>
    cases i with
    | zero => simp at hi
    | succ i => simpa using (ih (by simpa using hi)).keep h
  | drop h H ih =>
    cases i with
    | zero => simpa using H.drop (hf _ h)
    | succ i => simpa using (ih (by simpa using hi)).drop h

/-- A marked place can be changed in both lists, in the second one at its rank. -/
lemma set (H : Sifted P R bs xs ys) (hi : bs[i]? = some true) {x : α} {y : β} (hxy : R x y) :
    Sifted P R bs (xs.set i x) (ys.set (rank bs i) y) := by
  rw [List.set_eq_modify, List.set_eq_modify]
  exact H.modify hi fun _ _ _ => hxy

/-- A place that is not marked can be changed in the first list alone. -/
lemma set_left (H : Sifted P R bs xs ys) (hi : bs[i]? ≠ some true) {x : α} (hx : P x) :
    Sifted P R bs (xs.set i x) ys := by
  rw [List.set_eq_modify]
  exact H.modify_left hi fun _ _ => hx

/-- Lists can be sifted part by part. -/
lemma append {bs' : List Bool} {xs' : List α} {ys' : List β} (H : Sifted P R bs xs ys)
    (H' : Sifted P R bs' xs' ys') : Sifted P R (bs ++ bs') (xs ++ xs') (ys ++ ys') := by
  induction H with
  | nil => exact H'
  | keep h _ ih => exact .keep h ih
  | drop h _ ih => exact .drop h ih

end Sifted

end NodeKeeper
