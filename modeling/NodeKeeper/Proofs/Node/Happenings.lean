import Mathlib.Tactic.Lemma
import NodeKeeper.Node.World
import NodeKeeper.Proofs.Fault.Kinds

/-!
# Happenings

What a flow goes through is a list of happenings. The facts here are about such lists: where a
happening of some sort can stand in one, and that nothing follows a cancellation.

## Main definitions

* `Happening.isCancelled` — a call that failed by cancellation, or a pause that was cut short by it.
* `Happening.isWait` — a pause, or a read of one resource.
* `StopsAtCancel` — nothing follows a cancellation.
* `lastRead` — what the last read that was answered found.

## Main results

* `StopsAtCancel.eq_nil` — what follows a cancellation in such a list is nothing.
* `append_cons_cases`, `append_cons_unique` — where a happening stands in a list that is put
  together.
-/

namespace NodeKeeper

namespace Happening

/-- The fault that a call failed with, or that cut a pause short. -/
def fault? : Happening → Option Fault
  | called _ (.error f) => some f
  | called _ (.ok _) => none
  | paused _ cut => cut

/-- The flow was cancelled. -/
def isCancelled (h : Happening) : Bool := h.fault?.any fun f => f.isA .cancelled

/-- A pause, or a read of a resource. -/
def isWait (id : String) : Happening → Bool
  | called (.get j) _ => j = id
  | paused _ _ => true
  | _ => false

/-- A call to delete a resource. -/
def isDelete : Happening → Bool
  | called (.delete _) _ => true
  | _ => false

/-- A deletion that was accepted. -/
def isAccepted : Happening → Bool
  | called (.delete _) (.ok a) => a.isTruthy
  | _ => false

/-- A happening that is a deletion is a call to delete some node. -/
lemma call?_of_isDelete {h : Happening} (hd : h.isDelete = true) :
    ∃ id, h.call? = some (.delete id) := by
  cases h with
  | called c out => cases c <;> first | exact ⟨_, rfl⟩ | exact absurd hd Bool.false_ne_true
  | paused s cut => exact absurd hd Bool.false_ne_true

/-- A call to list or remove secondary resources. -/
def isOrphanCall : Happening → Bool
  | called (.listOrphans _) _ | called (.deleteOrphan _) _ => true
  | _ => false

/-- A call to remove a firewall policy, a firewall rule, or a key pair. -/
def isRemoval : Happening → Bool
  | called (.deletePolicy _) _ | called (.deleteRule _) _ | called (.deleteKeyPair _) _ => true
  | _ => false

/-- A removal of the key pair of a name, which succeeded. -/
def removesKeyPair (name : String) : Happening → Bool
  | called (.deleteKeyPair (.text s)) (.ok _) => s == name
  | _ => false

/-- A happening that removes the key pair of a name is the call to delete it, and has succeeded. -/
lemma eq_of_removesKeyPair {name : String} {h : Happening} (hr : h.removesKeyPair name = true) :
    ∃ a, h = called (.deleteKeyPair (.text name)) (.ok a) := by
  unfold removesKeyPair at hr
  split at hr
  · next s a =>
    obtain rfl := beq_iff_eq.1 hr
    exact ⟨a, rfl⟩
  · exact absurd hr Bool.false_ne_true

/-- A call that was answered was not cancelled. -/
@[simp] lemma isCancelled_ok (c : Call) (a : c.Answer) :
    (called c (.ok a)).isCancelled = false := rfl

/-- What fails with a fault that can be handled was not cancelled. -/
lemma isCancelled_eq_false_of_isOrdinary {h : Happening}
    (hf : ∀ f ∈ h.fault?, f.isOrdinary = true) : h.isCancelled = false := by
  rw [isCancelled, Option.any_eq_false]
  refine fun f hfault => Bool.eq_false_iff.2 fun hcancel => ?_
  have ho := hf f hfault
  rw [Fault.isOrdinary_eq_false_of_cancelled hcancel] at ho
  exact Bool.false_ne_true ho

/-- Waiting is neither a deletion nor a concern of secondary resources. -/
lemma of_isWait {h : Happening} {id : String} (hw : h.isWait id = true) :
    h.isDelete = false ∧ h.isOrphanCall = false := by
  cases h with
  | called c out => cases c <;> first | exact ⟨rfl, rfl⟩ | exact absurd hw (by simp [isWait])
  | paused s cut => exact ⟨rfl, rfl⟩

/-- What happens in a wait is not the removal of a resource. -/
lemma isRemoval_of_isWait {h : Happening} {id : String} (hw : h.isWait id = true) :
    h.isRemoval = false := by
  cases h with
  | called c out => cases c <;> first | rfl | exact absurd hw (by simp [isWait])
  | paused s cut => rfl

/-- A read before some waiting is waiting as well. -/
lemma isWait_of_mem_get_cons {id : String} {out : Except Fault Value} {waits : List Happening}
    (hw : ∀ h ∈ waits, h.isWait id = true) :
    ∀ h ∈ called (.get id) out :: waits, h.isWait id = true := by
  intro h hh
  rcases List.mem_cons.1 hh with rfl | hh
  · simp [isWait]
  · exact hw h hh

/-- A call for a secondary resource is not the deletion of a node. -/
lemma isDelete_eq_false_of_isOrphanCall {h : Happening} (ho : h.isOrphanCall = true) :
    h.isDelete = false := by
  cases h with
  | called c out => cases c <;> first | rfl | exact absurd ho Bool.false_ne_true
  | paused s cut => rfl

end Happening

/-! ## Cancellation -/

/-- Nothing follows a cancellation. -/
def StopsAtCancel : List Happening → Prop
  | [] => True
  | h :: rest => (h.isCancelled = true → rest = []) ∧ StopsAtCancel rest

/-- The flow was not cancelled. -/
def Undisturbed (tr : List Happening) : Prop := ∀ h ∈ tr, h.isCancelled = false

/-- Of a single happening it is true that nothing comes after a cancellation. -/
lemma StopsAtCancel.single (h : Happening) : StopsAtCancel [h] := ⟨fun _ => rfl, trivial⟩

/-- It stays true in front of what it is true of, unless the first happening is a cancellation
itself. -/
lemma StopsAtCancel.cons {h : Happening} {tr : List Happening} (hh : h.isCancelled = false)
    (ht : StopsAtCancel tr) : StopsAtCancel (h :: tr) :=
  ⟨fun hc => absurd hc (by simp [hh]), ht⟩

/-- It is true of what comes after happenings of which none is a cancellation. -/
lemma Undisturbed.append_stops {tr tr' : List Happening} (h : Undisturbed tr)
    (h' : StopsAtCancel tr') : StopsAtCancel (tr ++ tr') := by
  induction tr with
  | nil => exact h'
  | cons x tr ih =>
    exact StopsAtCancel.cons (h x List.mem_cons_self)
      (ih fun y hy => h y (List.mem_cons_of_mem _ hy))

/-- Without a cancellation, nothing comes after one. -/
lemma Undisturbed.stops {tr : List Happening} (h : Undisturbed tr) : StopsAtCancel tr := by
  have hs : StopsAtCancel (tr ++ []) := h.append_stops trivial
  rwa [List.append_nil] at hs

/-- Without a cancellation in either part, there is none in both together. -/
lemma Undisturbed.append {tr tr' : List Happening} (h : Undisturbed tr) (h' : Undisturbed tr') :
    Undisturbed (tr ++ tr') :=
  fun x hx => (List.mem_append.1 hx).elim (h x) (h' x)

/-- What follows a cancellation is nothing. -/
lemma StopsAtCancel.eq_nil {tr pre post : List Happening} {h : Happening} (hs : StopsAtCancel tr)
    (htr : tr = pre ++ h :: post) (hc : h.isCancelled = true) : post = [] := by
  subst htr
  induction pre with
  | nil => exact hs.1 hc
  | cons x pre ih => exact ih hs.2

/-! ## Reads -/

/-- What a read of a resource or an image found. -/
def Happening.read? : Happening → Option Value
  | .called (.get _) (.ok v) | .called (.getImage _) (.ok v) => some v
  | _ => none

/-- What the last read that was answered found, or what was known before if there was none. -/
def lastRead (seen : Value) (tr : List Happening) : Value :=
  (tr.filterMap Happening.read?).getLastD seen

/-- The last state that was read in two parts is the last one of the second part, and if that has
none, the one of the first part. -/
lemma lastRead_append {seen : Value} {a b : List Happening} :
    lastRead seen (a ++ b) = lastRead (lastRead seen a) b := by
  simp [lastRead, List.getLastD_eq_getLast?]

/-- Right behind a read, its state is the last one. -/
lemma lastRead_append_of_read {seen v : Value} {tr : List Happening} {h : Happening}
    (hv : h.read? = some v) : lastRead seen (tr ++ [h]) = v := by
  simp [lastRead, hv]

/-- What is not a read does not change what was read last. -/
lemma lastRead_append_of_none {seen : Value} {tr : List Happening} {h : Happening}
    (hn : h.read? = none) : lastRead seen (tr ++ [h]) = lastRead seen tr := by
  simp [lastRead, hn]

/-! ## Places -/

section Places

variable {α : Type} {p : α → Prop} {a b pre post : List α} {x y : α}

/-- What does not stand in the first part of a list stands in the second one.

**Proof sketch.** The induction is on the first part. Its elements are passed over one by one, since
none of them is the one in question. -/
lemma append_cons_cases (h : a ++ b = pre ++ y :: post) (ha : ∀ z ∈ a, ¬ p z) (hy : p y) :
    ∃ q, pre = a ++ q ∧ b = q ++ y :: post := by
  induction a generalizing pre with
  | nil => exact ⟨pre, rfl, h⟩
  | cons z a ih =>
    cases pre with
    | nil =>
      obtain ⟨rfl, -⟩ := List.cons.inj h
      exact absurd hy (ha z List.mem_cons_self)
    | cons w pre =>
      obtain ⟨rfl, htail⟩ := List.cons.inj h
      obtain ⟨q, rfl, hq⟩ := ih htail fun u hu => ha u (List.mem_cons_of_mem _ hu)
      exact ⟨q, rfl, hq⟩

/-- What stands at one place of a list only stands at that place. -/
lemma append_cons_unique (h : a ++ x :: b = pre ++ y :: post) (ha : ∀ z ∈ a, ¬ p z)
    (hb : ∀ z ∈ b, ¬ p z) (hy : p y) : pre = a ∧ y = x ∧ post = b := by
  obtain ⟨q, rfl, hq⟩ := append_cons_cases h ha hy
  cases q with
  | nil =>
    obtain ⟨rfl, rfl⟩ := List.cons.inj hq
    exact ⟨List.append_nil _, rfl, rfl⟩
  | cons w q =>
    obtain ⟨-, rfl⟩ := List.cons.inj hq
    exact absurd hy (hb y (by simp))

end Places

end NodeKeeper
