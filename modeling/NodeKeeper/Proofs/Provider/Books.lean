import Mathlib
import NodeKeeper.Proofs.Provider.Simulated

/-!
# The books of simulated guests

Guests are provisioned, looked at and torn down, one step after the other. The books of these steps
are kept in balance: whoever was created is either there or was deleted once.

## Main definitions

* `Happening.creates`, `Happening.deletes` — what counts in a history.
* `Simulated.Step`, `Simulated.Done` — something to do, and what came of it.
* `Simulated.Books` — what holds after some steps.

## Main results

* `Simulated.Books.fresh` — the next number is new.
* `Simulated.Books.exists_nth` — who is there was looked at four times.
* `Simulated.Books.look`, `Simulated.Books.delete`, `Simulated.Books.ready`,
  `Simulated.Books.late` — what keeps the books.

## Implementation notes

What was done is counted, in the steps and in the history of the world, so that "at most once" and
"either there or deleted" are one sum for each identifier.
-/

namespace NodeKeeper

namespace Happening

/-- A resource of that identifier was created. -/
def creates (id : String) : Happening → Bool
  | called (.create _) (.ok handle) => handle.id == id
  | _ => false

/-- The resource of that identifier was deleted. -/
def deletes (id : String) : Happening → Bool
  | called (.delete i) (.ok accepted) => i == id && accepted.isTruthy
  | _ => false

section Simp

variable {id i : String} {out : Except Fault Value}

/-- A request for a new node that was answered creates the node of the handle, and no other. -/
@[simp] lemma creates_create {req : ProvisionRequest} {handle : Handle} :
    (called (.create req) (.ok handle : Except Fault Handle)).creates id = (handle.id == id) := rfl

/-- To get the state of a node creates none. -/
@[simp] lemma creates_get : (called (.get i) out).creates id = false := by cases out <;> rfl

/-- To delete a node creates none. -/
@[simp] lemma creates_delete : (called (.delete i) out).creates id = false := by cases out <;> rfl

/-- To pause creates none. -/
@[simp] lemma creates_paused {t : Float} {cut : Option Fault} :
    (paused t cut).creates id = false := rfl

/-- A request for a new node deletes none. -/
@[simp] lemma deletes_create {req : ProvisionRequest} {made : Except Fault Handle} :
    (called (.create req) made).deletes id = false := by cases made <;> rfl

/-- To get the state of a node deletes none. -/
@[simp] lemma deletes_get : (called (.get i) out).deletes id = false := by cases out <;> rfl

/-- A node is deleted by a call that says that it was there; one that says that it was not deletes
nothing. -/
@[simp] lemma deletes_delete :
    (called (.delete i) (.ok (.bool true) : Except Fault Value)).deletes id = (i == id) :=
  Bool.and_true _

/-- To pause deletes none. -/
@[simp] lemma deletes_paused {t : Float} {cut : Option Fault} :
    (paused t cut).deletes id = false := rfl

end Simp

end Happening

namespace Simulated

/-! ## Courses -/

/-- Something to do with guests. -/
inductive Step where
  | provision (req : ProvisionRequest)
  | destroy (id : String)
  | get (id : String)

/-- How a step ended. -/
inductive Report where
  | provisioned (e : Ending Provisioned)
  | destroyed (e : Ending Dismantled)
  | got (e : Ending Value)

/-- A step that was taken, and the worlds before and after it. -/
structure Done where
  step : Step
  report : Report
  before : World Guests
  after : World Guests

namespace Done

/-- What happened in a step. -/
def happenings (y : Done) : List Happening := y.after.history.drop y.before.history.length

/-- The step was a provisioning. -/
def provisions (y : Done) : Bool :=
  match y.step with
  | .provision _ => true
  | _ => false

/-- The step was a provisioning that returned a guest that is ready. -/
def readies (id : String) (y : Done) : Bool :=
  match y.report with
  | .provisioned (.returned r) => r.handle.id == id && r.stage == .ready
  | _ => false

/-- The step was a teardown of the guest, and reported that it was deleted. -/
def deletes (id : String) (y : Done) : Bool :=
  match y.step, y.report with
  | .destroy i, .destroyed (.returned r) => i == id && r.deleted
  | _, _ => false

end Done

/-! ## Books -/

/-- The number of an identifier was given out. -/
def GivenOut (next : Nat) (id : String) : Prop := ∃ k < next, id = toString k

namespace GivenOut

variable {n : Nat} {id : String}

/-- The next number was not. -/
lemma not_next : ¬ GivenOut n (toString n) := by
  rintro ⟨k, hk, hid⟩
  exact hk.ne' (Nat.repr_inj.1 hid)

/-- The next number becomes one of those that were given out as soon as it is. -/
lemma next : GivenOut (n + 1) (toString n) := ⟨n, Nat.lt_succ_self n, rfl⟩

/-- What was given out still was when more numbers are. -/
lemma succ (h : GivenOut n id) : GivenOut (n + 1) id := by
  obtain ⟨k, hk, hid⟩ := h
  exact ⟨k, hk.trans (Nat.lt_succ_self n), hid⟩

end GivenOut

/-- What holds after some steps, whatever they were. -/
structure Books (past : List Done) (w : World Guests) : Prop where
  next : w.backend.nextId = 1000 + past.countP Done.provisions
  /-- Every guest that is there has a number that was given out, and was looked at four times. -/
  known : ∀ r ∈ w.backend.present, GivenOut w.backend.nextId r.id ∧
    ∃ hostname n, 4 ≤ n ∧ r = .nth r.id hostname n
  present : ∀ id, (w.backend.record? id).isSome ↔
    (∃ y ∈ past, y.readies id) ∧ ∀ y ∈ past, ¬ y.deletes id
  once : ∀ id, past.countP (Done.deletes id) ≤ 1 ∧
    (0 < past.countP (Done.deletes id) → GivenOut w.backend.nextId id)
  created : ∀ id, w.history.countP (Happening.creates id) ≤ 1 ∧
    (0 < w.history.countP (Happening.creates id) → GivenOut w.backend.nextId id)
  balance : ∀ id, w.history.countP (Happening.creates id) =
    w.history.countP (Happening.deletes id) + if (w.backend.record? id).isSome then 1 else 0

namespace Record

variable {id : String} (r : Record)

/-- A look at a guest creates none. -/
@[simp] lemma creates_looked : r.looked.creates id = false := rfl

/-- A look at a guest deletes none. -/
@[simp] lemma deletes_looked : r.looked.deletes id = false := rfl

end Record

namespace Books

variable {past : List Done} {w w' : World Guests} {y : Done} {id : String}

/-- The books are in order before anything has happened: no guest is there, and no number was given
out. -/
lemma start (now : Float) : Books [] { now, backend := {} } where
  next := rfl
  known := by simp
  present := by simp [Guests.record?]
  once := by simp
  created := by simp
  balance := by simp [Guests.record?]

/-- The next number is new. -/
lemma fresh (H : Books past w) : ∀ r ∈ w.backend.present, r.id ≠ toString w.backend.nextId :=
  fun r hr hid => GivenOut.not_next (hid ▸ (H.known r hr).1)

/-- A guest that is there has been looked at four times. -/
lemma exists_nth (H : Books past w) {r : Record} (h : w.backend.record? id = some r) :
    ∃ hostname n, 4 ≤ n ∧ r = .nth id hostname n := by
  obtain ⟨-, hostname, n, hn, hr⟩ := H.known r (List.mem_of_find?_eq_some h)
  rw [Guests.id_of_record? h] at hr
  exact ⟨hostname, n, hn, hr⟩

/-- A number that has not been given out is in no book. -/
lemma creates_next (H : Books past w) :
    w.history.countP (Happening.creates (toString w.backend.nextId)) = 0 := by
  by_contra hne
  exact GivenOut.not_next ((H.created _).2 (Nat.pos_of_ne_zero hne))

/-- No past step deleted the guest whose number is the next one: only guests whose numbers were
given out can have been deleted. -/
lemma not_deletes_next (H : Books past w) : ∀ y ∈ past, ¬ y.deletes (toString w.backend.nextId) :=
  fun y hy hdeletes =>
    GivenOut.not_next ((H.once _).2 (List.countP_pos_iff.2 ⟨y, hy, hdeletes⟩))

/-- A step that does no more than look at a guest.

**Proof sketch.** A look changes what is shown of the guest and nothing else, so a guest is the one
before or one that was looked at once more. All counts stay. -/
lemma look (H : Books past w) (hprovisions : y.provisions = false)
    (hreadies : ∀ id, y.readies id = false) (hdeletes : ∀ id, y.deletes id = false) {v : Value}
    (hbackend : w'.backend = (w.backend.look id).2)
    (hhistory : w'.history = w.history ++ [.called (.get id) (.ok v)]) : Books (past ++ [y]) w' := by
  have hnext : w'.backend.nextId = w.backend.nextId := by rw [hbackend, Guests.nextId_look]
  have hcreates (i : String) : w'.history.countP (Happening.creates i) =
      w.history.countP (Happening.creates i) := by simp [hhistory]
  have hdeleted (i : String) : w'.history.countP (Happening.deletes i) =
      w.history.countP (Happening.deletes i) := by simp [hhistory]
  constructor
  case next => simp [hnext, H.next, hprovisions]
  case known =>
    intro r hr
    rw [hbackend] at hr
    rw [hnext]
    rcases Guests.mem_look hr with hr | ⟨r₀, hr₀, rfl⟩
    · exact H.known r hr
    · obtain ⟨hid, hostname, n, hn, heq⟩ := H.known r₀ hr₀
      exact ⟨hid, hostname, n + 1, by omega, congrArg Record.look heq⟩
  case present => simp [hbackend, H.present, hreadies, hdeletes, or_imp, forall_and]
  case once =>
    intro i
    rw [hnext, List.countP_append, List.countP_singleton, hdeletes]
    exact H.once i
  case created =>
    intro i
    rw [hcreates, hnext]
    exact H.created i
  case balance =>
    intro i
    rw [hcreates, hdeleted, hbackend, Guests.isSome_record?_look]
    exact H.balance i

/-- A teardown that finds its guest.

**Proof sketch.** The guest that was found was created before and not deleted yet, by `present`, so
this is its first deletion. On the other guests the books say what they said. -/
lemma delete (H : Books past w) (hprovisions : y.provisions = false)
    (hreadies : ∀ id, y.readies id = false) (hdeletes : ∀ i, y.deletes i = (id == i)) {r : Record}
    (hr : w.backend.record? id = some r) {r₁ r₂ : Record}
    (hbackend : w'.backend = (w.backend.delete id).2)
    (hhistory : w'.history = w.history ++ [r₁.looked, r₂.looked,
      .called (.delete id) (.ok (.bool true)), .called (.get id) (.ok .null)]) :
    Books (past ++ [y]) w' := by
  have hthere : (w.backend.record? id).isSome := by rw [hr]; rfl
  have hnext : w'.backend.nextId = w.backend.nextId := by rw [hbackend]; rfl
  have hrest (i : String) : (w'.backend.record? i).isSome ↔
      (w.backend.record? i).isSome ∧ id ≠ i := by
    rw [hbackend]
    exact Guests.isSome_record?_delete
  have hcreates (i : String) : w'.history.countP (Happening.creates i) =
      w.history.countP (Happening.creates i) := by simp [hhistory]
  have hdeleted (i : String) : w'.history.countP (Happening.deletes i) =
      w.history.countP (Happening.deletes i) + if id = i then 1 else 0 := by
    simp [hhistory, List.countP_cons]
  constructor
  case next => simp [hnext, H.next, hprovisions]
  case known =>
    intro x hx
    rw [hnext]
    rw [hbackend] at hx
    exact H.known x (List.mem_filter.1 hx).1
  case present =>
    intro i
    rw [hrest, H.present]
    simp [hreadies, hdeletes, or_imp, forall_and, and_assoc]
  case once =>
    intro i
    rw [hnext, List.countP_append, List.countP_singleton, hdeletes]
    by_cases hid : id = i
    · subst hid
      have hpast : past.countP (Done.deletes id) = 0 :=
        List.countP_eq_zero.2 ((H.present id).1 hthere).2
      have hgiven := (H.known r (List.mem_of_find?_eq_some hr)).1
      rw [Guests.id_of_record? hr] at hgiven
      exact ⟨by simp [hpast], fun _ => hgiven⟩
    · simpa [hid] using H.once i
  case created =>
    intro i
    rw [hcreates, hnext]
    exact H.created i
  case balance =>
    intro i
    have hbalance := H.balance i
    rw [hcreates, hdeleted, hbalance, if_congr (hrest i) rfl rfl]
    by_cases hid : id = i
    · subst hid
      simp [hthere]
    · simp [hid]

section New

variable {req : ProvisionRequest} {t t' : Float}

/-- The books after a number was given out.

**Proof sketch.** Under the new number one guest is created, and none was before. On all others the
books say what they said. -/
lemma created_of_next (H : Books past w) (hnext : w'.backend.nextId = w.backend.nextId + 1)
    (hcreates : ∀ i, w'.history.countP (Happening.creates i) =
      w.history.countP (Happening.creates i) + if toString w.backend.nextId = i then 1 else 0)
    (i : String) : w'.history.countP (Happening.creates i) ≤ 1 ∧
      (0 < w'.history.countP (Happening.creates i) → GivenOut w'.backend.nextId i) := by
  rw [hcreates, hnext]
  by_cases hid : toString w.backend.nextId = i
  · subst hid
    rw [H.creates_next, if_pos rfl]
    exact ⟨le_rfl, fun _ => .next⟩
  · rw [if_neg hid, Nat.add_zero]
    exact ⟨(H.created i).1, fun hpos => ((H.created i).2 hpos).succ⟩

/-- A step that gives out the next number, and deletes nobody, leaves each guest deleted at most
once, and only guests whose numbers were given out. -/
lemma once_of_next (H : Books past w) (hnext : w'.backend.nextId = w.backend.nextId + 1)
    (hdeletes : ∀ id, y.deletes id = false) (i : String) :
    (past ++ [y]).countP (Done.deletes i) ≤ 1 ∧
      (0 < (past ++ [y]).countP (Done.deletes i) → GivenOut w'.backend.nextId i) := by
  rw [hnext, List.countP_append, List.countP_singleton, hdeletes]
  exact ⟨(H.once i).1, fun hpos => ((H.once i).2 hpos).succ⟩

/-- A provisioning whose guest gets ready.

**Proof sketch.** The guest gets the next number. Under it none was created, readied or deleted
before, by `next` and `creates_next`; on all others the books say what they said. -/
lemma ready (H : Books past w) (hprovisions : y.provisions = true)
    (hreadies : ∀ i, y.readies i = (toString w.backend.nextId == i))
    (hdeletes : ∀ id, y.deletes id = false)
    (hbackend : w'.backend = ⟨w.backend.nextId + 1, w.backend.present ++ [w.backend.next req 4]⟩)
    (hhistory : w'.history = w.history ++ [.called (.create req) (.ok w.backend.nextHandle),
      (w.backend.next req 1).looked, .paused t none, (w.backend.next req 2).looked,
      .paused t' none, (w.backend.next req 3).looked, (w.backend.next req 4).looked]) :
    Books (past ++ [y]) w' := by
  have hnext : w'.backend.nextId = w.backend.nextId + 1 := by rw [hbackend]
  have hthere (i : String) : (w'.backend.record? i).isSome ↔
      (w.backend.record? i).isSome ∨ toString w.backend.nextId = i := by
    simp [hbackend, Guests.record?, Guests.next, List.find?_append]
  have hcreates (i : String) : w'.history.countP (Happening.creates i) =
      w.history.countP (Happening.creates i) + if toString w.backend.nextId = i then 1 else 0 := by
    simp [hhistory, List.countP_cons, Guests.nextHandle]
  have hdeleted (i : String) : w'.history.countP (Happening.deletes i) =
      w.history.countP (Happening.deletes i) := by simp [hhistory]
  constructor
  case next => simp [hnext, H.next, hprovisions, add_assoc]
  case known =>
    intro r hr
    rw [hnext]
    rw [hbackend] at hr
    rcases List.mem_append.1 hr with hr | hr
    · exact ⟨(H.known r hr).1.succ, (H.known r hr).2⟩
    · obtain rfl := List.mem_singleton.1 hr
      exact ⟨.next, req.instanceName, 4, le_rfl, rfl⟩
  case present =>
    intro i
    rw [hthere, H.present]
    by_cases hid : toString w.backend.nextId = i
    · subst hid
      simpa [hreadies, hdeletes, or_imp, forall_and] using H.not_deletes_next
    · simp [hreadies, hdeletes, hid, or_imp, forall_and, -Nat.toString_eq_repr]
  case once => exact H.once_of_next hnext hdeletes
  case created => exact H.created_of_next hnext hcreates
  case balance =>
    intro i
    have hbalance := H.balance i
    rw [hcreates, hdeleted, if_congr (hthere i) rfl rfl]
    by_cases hid : toString w.backend.nextId = i
    · subst hid
      rw [H.creates_next] at hbalance ⊢
      simp only [if_true, or_true]
      omega
    · simpa [hid, -Nat.toString_eq_repr] using hbalance

/-- A provisioning whose guest is taken back.

**Proof sketch.** The guest is created and deleted under the next number. So both counts grow by one
for it, and the guests that are there are those from before. -/
lemma late (H : Books past w) (hprovisions : y.provisions = true)
    (hreadies : ∀ id, y.readies id = false) (hdeletes : ∀ id, y.deletes id = false)
    (hbackend : w'.backend = ⟨w.backend.nextId + 1, w.backend.present⟩)
    (hhistory : w'.history = w.history ++ [.called (.create req) (.ok w.backend.nextHandle),
      (w.backend.next req 1).looked, .paused t none, (w.backend.next req 2).looked,
      .called (.delete (toString w.backend.nextId)) (.ok (.bool true))]) :
    Books (past ++ [y]) w' := by
  have hnext : w'.backend.nextId = w.backend.nextId + 1 := by rw [hbackend]
  have hsame (i : String) : w'.backend.record? i = w.backend.record? i := by
    rw [hbackend]
    rfl
  have hcreates (i : String) : w'.history.countP (Happening.creates i) =
      w.history.countP (Happening.creates i) + if toString w.backend.nextId = i then 1 else 0 := by
    simp [hhistory, List.countP_cons, Guests.nextHandle]
  have hdeleted (i : String) : w'.history.countP (Happening.deletes i) =
      w.history.countP (Happening.deletes i) + if toString w.backend.nextId = i then 1 else 0 := by
    simp [hhistory, List.countP_cons]
  constructor
  case next => simp [hnext, H.next, hprovisions, add_assoc]
  case known =>
    intro r hr
    rw [hnext]
    rw [hbackend] at hr
    exact ⟨(H.known r hr).1.succ, (H.known r hr).2⟩
  case present =>
    intro i
    rw [hsame, H.present]
    simp [hreadies, hdeletes, or_imp, forall_and]
  case once => exact H.once_of_next hnext hdeletes
  case created => exact H.created_of_next hnext hcreates
  case balance =>
    intro i
    rw [hcreates, hdeleted, hsame, H.balance i]
    exact Nat.add_right_comm _ _ _

end New

end Books

end Simulated

end NodeKeeper
