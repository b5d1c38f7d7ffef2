import NodeKeeper.Provider.Guest
import NodeKeeper.Provider.Simulated
import NodeKeeper.Proofs.Decimal.Rounding
import NodeKeeper.Proofs.Node.Known

/-!
# Provisioning and teardown of simulated guests

A simulated guest is known by how often it was looked at. It is ready from the third look on, and
has drained from the sixth on. A provisioning looks four times at a guest that gets ready, so that
a teardown, which looks once before it waits, never has to wait.

## Main definitions

* `Simulated.Record.nth` — a guest that was looked at so many times.
* `Simulated.Record.looked` — the look at a guest.

## Main results

* `Simulated.Record.fields_nth` — what is known of a guest after so many looks.
* `Simulated.goes_provision_of_ready`, `Simulated.goes_provision_of_late` — a provisioning, if there
  is time for three looks and if there is not.
* `Simulated.goes_destroy_of_absent`, `Simulated.goes_destroy_of_present` — a teardown.
-/

namespace NodeKeeper.Simulated

open NodeKeeper.Flow (Goes)

/-! ## One guest -/

namespace Record

/-- A guest that was looked at so many times. -/
def nth (id hostname : String) : Nat → Record
  | 0 => new id hostname
  | n + 1 => (nth id hostname n).look

/-- A guest as it is reported. -/
def state (r : Record) : Value := .record r.fields

/-- The look at a guest that found it like this. -/
def looked (r : Record) : Happening := .called (.get r.id) (.ok r.state)

variable (id hostname : String) (n : Nat)

/-- A look at a guest leaves its number as it is. -/
@[simp] lemma id_look (r : Record) : r.look.id = r.id := rfl

/-- However often it was looked at, a guest keeps its number. -/
@[simp] lemma id_nth : (nth id hostname n).id = id := by
  induction n with
  | zero => rfl
  | succ n ih => exact ih

/-- A guest counts the looks at it. -/
@[simp] lemma looks_nth : (nth id hostname n).looks = n := by
  induction n with
  | zero => rfl
  | succ n ih => exact congrArg (· + 1) ih

/-- **What is known of a guest** after so many looks.

**Proof sketch.** The induction is on the looks. At the third one the login appears and at the sixth
one the transaction ends, so the step is compared with both numbers. -/
theorem fields_nth : (nth id hostname n).fields =
    [("id", .text id), ("hostname", .text hostname),
      ("activeTransactionCount", .int (if n < 6 then 1 else 0))] ++
      if n < 3 then [] else loginDetails := by
  induction n with
  | zero => rfl
  | succ n ih =>
    have hlook : (nth id hostname (n + 1)).fields = (look (nth id hostname n)).fields := rfl
    rw [hlook, look, looks_nth, ih]
    rcases Nat.lt_trichotomy (n + 1) 3 with h | h | h
    · simp [h, show n < 3 by omega, show n < 6 by omega, show n + 1 < 6 by omega, show n ≠ 2 by omega,
        show n ≠ 5 by omega]
    · obtain rfl : n = 2 := by omega
      simp [loginDetails, Value.setField]
    · rcases Nat.lt_trichotomy (n + 1) 6 with h' | h' | h'
      · simp [h', show ¬ n < 3 by omega, show n < 6 by omega, show ¬ n + 1 < 3 by omega,
          show n ≠ 2 by omega, show n ≠ 5 by omega]
      · obtain rfl : n = 5 := by omega
        simp [loginDetails, Value.setField]
      · simp [show ¬ n < 3 by omega, show ¬ n < 6 by omega, show ¬ n + 1 < 3 by omega,
          show ¬ n + 1 < 6 by omega, show n ≠ 2 by omega, show n ≠ 5 by omega]

/-- The state of a guest that is there is not null. -/
lemma isNull_state (r : Record) : r.state.isNull = false := rfl

/-- The login of a guest. -/
def login : Login := ⟨.text "root", .text "demo", .null⟩

/-- A guest is ready from the third look on. -/
lemma hasLogin_nth : Guest.hasLogin (nth id hostname n).state = .ok (decide (3 ≤ n)) := by
  unfold Guest.hasLogin state
  rw [fields_nth]
  by_cases h : n < 3
  · rw [if_pos h, decide_eq_false (by omega)]
    rfl
  · rw [if_neg h, decide_eq_true (by omega)]
    rfl

/-- From the third look on a guest has a login, with its address and password. -/
lemma login?_nth (h : 3 ≤ n) : Guest.login? (nth id hostname n).state = .ok (some login) := by
  unfold Guest.login? state
  rw [fields_nth, if_neg (show ¬ n < 3 by omega)]
  rfl

/-- A guest has drained from the sixth look on. -/
lemma pending_nth (h : 6 ≤ n) : Guest.pending (nth id hostname n).state = .ok (.int 0) := by
  unfold Guest.pending state
  rw [fields_nth, if_neg (show ¬ n < 6 by omega)]
  rfl

/-- A guest shows the name that it was created with. -/
lemma name_nth : Guest.name (nth id hostname n).state = .ok hostname := by
  unfold Guest.name state
  rw [fields_nth]
  rfl

end Record

/-! ## All guests -/

namespace Guests

variable {g : Guests} {id : String} {r : Record}

/-- The guest of an identifier. -/
def record? (g : Guests) (id : String) : Option Record := g.present.find? fun r => r.id == id

/-- The guest that is found under a number has it. -/
lemma id_of_record? (h : g.record? id = some r) : r.id = id := by
  simpa using List.find?_some h

/-- No guest is found under a number just if none has it. -/
lemma record?_eq_none_iff : g.record? id = none ↔ ∀ r ∈ g.present, r.id ≠ id := by
  simp [record?, List.find?_eq_none]

/-- A look at a guest that is not there shows null, and changes nothing. -/
lemma look_of_absent (h : g.record? id = none) : g.look id = (.null, g) := by
  unfold record? at h
  unfold look
  rw [h]

/-- A look at a guest that is there shows the state that it comes to by the look, and leaves it in
that state; the others are left as they are. -/
lemma look_eq (h : g.record? id = some r) : g.look id = (r.look.state,
    { g with present := g.present.map fun x => if x.id = id then r.look else x }) := by
  unfold record? at h
  unfold look
  rw [h]
  rfl

/-- What a look at a guest that is there shows is the state that it comes to by the look. -/
lemma look_of_present (h : g.record? id = some r) : g.look id = (r.look.state, (g.look id).2) :=
  Prod.ext (by rw [look_eq h]) rfl

/-- A guest that was looked at is found as it was seen.

**Proof sketch.** The first record with the name is the one that is looked at, and looking at it
keeps its name. So the induction on the list stops at the same place. -/
lemma record?_look (h : g.record? id = some r) : (g.look id).2.record? id = some r.look := by
  have hid := id_of_record? h
  have hfind : ∀ l : List Record, l.find? (fun x => x.id == id) = some r →
      (l.map fun x => if x.id = id then r.look else x).find? (fun x => x.id == id) =
        some r.look := by
    intro l hl
    induction l with
    | nil => exact absurd hl (by simp)
    | cons x rest ih =>
      by_cases hx : x.id = id
      · rw [List.map_cons, if_pos hx]
        exact List.find?_cons_of_pos (by simp [hid])
      · rw [List.find?_cons_of_neg (by simpa using hx)] at hl
        rw [List.map_cons, if_neg hx, List.find?_cons_of_neg (by simpa using hx)]
        exact ih hl
  rw [look_eq h]
  exact hfind _ h

/-- A guest that is there after a look was there before, or is one that was looked at once more.

**Proof sketch.** The look changes the guest that is looked at, and no other. -/
lemma mem_look {x : Record} (hx : x ∈ (g.look id).2.present) :
    x ∈ g.present ∨ ∃ r ∈ g.present, x = r.look := by
  cases h : g.record? id with
  | none =>
    rw [look_of_absent h] at hx
    exact .inl hx
  | some r =>
    rw [look_eq h] at hx
    obtain ⟨z, hz, rfl⟩ := List.mem_map.1 hx
    by_cases hid : z.id = id
    · exact .inr ⟨r, List.mem_of_find?_eq_some h, if_pos hid⟩
    · exact .inl ((if_neg hid).symm ▸ hz)

/-- A look gives out no number. -/
@[simp] lemma nextId_look : (g.look id).2.nextId = g.nextId := by
  cases h : g.record? id with
  | none => rw [look_of_absent h]
  | some r => rw [look_eq h]

/-- Looking does not change who is there.

**Proof sketch.** A look keeps the name of every guest. -/
@[simp] lemma isSome_record?_look (i : String) :
    ((g.look id).2.record? i).isSome = (g.record? i).isSome := by
  cases h : g.record? id with
  | none => rw [look_of_absent h]
  | some r =>
    have hid := id_of_record? h
    rw [look_eq h, Bool.eq_iff_iff]
    simp only [record?, List.find?_isSome, List.mem_map, exists_exists_and_eq_and]
    refine exists_congr fun x => and_congr_right fun _ => ?_
    by_cases hx : x.id = id
    · rw [if_pos hx, Record.id_look, hid, hx]
    · rw [if_neg hx]

/-- A look does not matter to a deletion.

**Proof sketch.** Looking changes records of that name only, and these are deleted. The lemma on
lists says it for the test and for what is kept. -/
lemma delete_look : (g.look id).2.delete id = g.delete id := by
  cases h : g.record? id with
  | none => rw [look_of_absent h]
  | some r =>
    have hid := id_of_record? h
    have hkept : ∀ l : List Record,
        (l.map fun x => if x.id = id then r.look else x).any (fun x => x.id == id) =
          l.any (fun x => x.id == id) ∧
        (l.map fun x => if x.id = id then r.look else x).filter (fun x => x.id ≠ id) =
          l.filter (fun x => x.id ≠ id) := by
      intro l
      induction l with
      | nil => exact ⟨rfl, rfl⟩
      | cons x rest ih =>
        by_cases hx : x.id = id <;> simp_all
    rw [look_eq h]
    unfold delete
    rw [(hkept _).1, (hkept _).2]

/-- Deleting a guest that is there. -/
lemma delete_of_present (h : g.record? id = some r) :
    g.delete id = (true, { g with present := g.present.filter fun x => x.id ≠ id }) := by
  unfold delete
  have hany : (g.present.any fun x => x.id == id) = true :=
    List.any_eq_true.2 ⟨r, List.mem_of_find?_eq_some h, by simp [id_of_record? h]⟩
  rw [hany]

/-- Deleting a guest does not change who else is there. -/
lemma isSome_record?_delete {i : String} : ((g.delete id).2.record? i).isSome ↔
    (g.record? i).isSome ∧ id ≠ i := by
  simp only [record?, delete, List.find?_isSome, List.mem_filter, decide_eq_true_eq, beq_iff_eq]
  constructor
  · rintro ⟨r, ⟨hr, hid⟩, rfl⟩
    exact ⟨⟨r, hr, rfl⟩, Ne.symm hid⟩
  · rintro ⟨⟨r, hr, rfl⟩, hid⟩
    exact ⟨r, ⟨hr, Ne.symm hid⟩, rfl⟩

/-- A guest that was deleted is not found any more. -/
lemma record?_delete : (g.delete id).2.record? id = none := by
  rw [← Option.not_isSome_iff_eq_none, isSome_record?_delete]
  exact fun h => h.2 rfl

section Last

variable {k : Nat} {rest : List Record}

/-- The guest that was created last is found if no other has its number. -/
lemma record?_last (h : ∀ x ∈ rest, x.id ≠ r.id) :
    (Guests.mk k (rest ++ [r])).record? r.id = some r := by
  have hrest : rest.find? (fun x => x.id == r.id) = none := by
    simpa [List.find?_eq_none] using h
  simp [record?, List.find?_append, hrest]

/-- Looking at the guest that was created last. -/
lemma look_last (h : ∀ x ∈ rest, x.id ≠ r.id) : (Guests.mk k (rest ++ [r])).look r.id =
    (r.look.state, ⟨k, rest ++ [r.look]⟩) := by
  have hmap : rest.map (fun x => if x.id = r.id then r.look else x) = rest :=
    (List.map_congr_left fun x hx => if_neg (h x hx)).trans (List.map_id rest)
  rw [look_eq (record?_last h)]
  simp [hmap]

/-- Deleting the guest that was created last. -/
lemma delete_last (h : ∀ x ∈ rest, x.id ≠ r.id) :
    (Guests.mk k (rest ++ [r])).delete r.id = (true, ⟨k, rest⟩) := by
  have hfilter : rest.filter (fun x => decide (x.id ≠ r.id)) = rest :=
    List.filter_eq_self.2 fun x hx => decide_eq_true (h x hx)
  unfold delete
  simp only [List.any_append, List.any_cons, beq_self_eq_true, Bool.true_or, Bool.or_true,
    List.filter_append, hfilter]
  simp

end Last

end Guests

/-! ## Provisioning -/

/-- The simulated provider answers a call for a state with what a look shows, and takes no time for
it. -/
lemma answer_of_look {g g' : Guests} {id : String} {v : Value} (h : g.look id = (v, g')) :
    surroundings.answer (.get id) g = (⟨none, .ok v⟩, g') := by
  obtain ⟨rfl, rfl⟩ := Prod.mk.inj h
  rfl

/-- The simulated provider answers a call to delete with whether the guest was there, and takes no
time for it. -/
lemma answer_of_delete {g g' : Guests} {id : String} {found : Bool} (h : g.delete id = (found, g')) :
    surroundings.answer (.delete id) g = (⟨none, .ok (.bool found)⟩, g') := by
  obtain ⟨rfl, rfl⟩ := Prod.mk.inj h
  rfl

section Provisioning

variable {p : Provisioner} {now : Float} {seen : Value}

section Last

variable {id hostname : String} {k n : Nat} {rest : List Record}

/-- The next look at the guest that was created last shows it one look older, and leaves the others
alone. -/
lemma look_nth (h : ∀ x ∈ rest, x.id ≠ id) :
    (Guests.mk k (rest ++ [.nth id hostname n])).look id =
      ((Record.nth id hostname (n + 1)).state, ⟨k, rest ++ [.nth id hostname (n + 1)]⟩) := by
  have hlook := Guests.look_last (k := k) (r := .nth id hostname n) (by simpa using h)
  rwa [Record.id_nth] at hlook

/-- The look at a guest is a call for its state, answered by the state. -/
lemma looked_nth : (Record.nth id hostname n).looked =
    .called (.get id) (.ok (Record.nth id hostname n).state) := by
  rw [Record.looked, Record.id_nth]

end Last

section New

variable {g : Guests} (req : ProvisionRequest) (horizon : Nat)

/-- The guest that is created next, after so many looks. -/
def Guests.next (g : Guests) (req : ProvisionRequest) : Nat → Record :=
  .nth (toString g.nextId) req.instanceName

/-- The handle of the guest that is created next. -/
def Guests.nextHandle (g : Guests) : Handle := { id := toString g.nextId }

/-- The first attempt of a wait is never too late. -/
lemma not_le_sub_self (h : ¬ p.timeout ≤ 0) (t : Float) : ¬ p.timeout ≤ t - t :=
  fun hle => h (Binary.le_zero_of_le_sub_self hle)

/-- The simulated provider answers a call to create with the handle of a guest that has the next
number, and adds the guest, which nobody has looked at yet. -/
lemma answer_create : surroundings.answer (.create req) g =
    (⟨none, .ok g.nextHandle⟩, ⟨g.nextId + 1, g.present ++ [g.next req 0]⟩) := rfl

/-- A check of a new guest: it is ready at the third look. -/
lemma goes_readyCheck (hready : p.isReady = Guest.hasLogin)
    (hfresh : ∀ x ∈ g.present, x.id ≠ toString g.nextId) (n : Nat) :
    (p.readyCheck surroundings (toString g.nextId)).Goes
      ⟨now, ⟨g.nextId + 1, g.present ++ [g.next req n]⟩, seen⟩ [(g.next req (n + 1)).looked]
      (.returned (decide (3 ≤ n + 1)))
      ⟨now, ⟨g.nextId + 1, g.present ++ [g.next req (n + 1)]⟩, (g.next req (n + 1)).state⟩ := by
  unfold Guests.next
  rw [looked_nth]
  refine Provisioner.goes_readyCheck (answer_of_look (look_nth hfresh)) (Record.isNull_state _) ?_
  rw [hready]
  exact Record.hasLogin_nth _ _ (n + 1)

/-- **A provisioning that has time for three looks** pauses twice and looks once more. The guest
stays.

**Proof sketch.** The three looks of the wait are those that `goes_readyCheck` describes, with a
pause between them. The last look finds the login, by `login?_nth`. -/
theorem goes_provision_of_ready (hready : p.isReady = Guest.hasLogin)
    (hlogin : p.login? = Guest.login?) (hbounds : ¬ p.timeout ≤ 0 ∧ ¬ p.period ≤ 0)
    (hfresh : ∀ x ∈ g.present, x.id ≠ toString g.nextId)
    (htime : ¬ p.timeout ≤ now + p.period - now) :
    (p.provision surroundings (horizon + 2) req).Goes ⟨now, g, seen⟩
      [.called (.create req) (.ok g.nextHandle), (g.next req 1).looked, .paused p.period none,
        (g.next req 2).looked, .paused p.period none, (g.next req 3).looked, (g.next req 4).looked]
      (.returned ⟨⟨toString g.nextId, (g.next req 4).state⟩, Record.login,
        now + p.period + p.period - now, .ready⟩)
      ⟨now + p.period + p.period, ⟨g.nextId + 1, g.present ++ [g.next req 4]⟩,
        (g.next req 4).state⟩ := by
  have hwait : (World.poll surroundings (p.settings (toString g.nextId))
      (p.readyCheck surroundings (toString g.nextId)) (horizon + 2)).Goes
      ⟨now, ⟨g.nextId + 1, g.present ++ [g.next req 0]⟩, .null⟩
      [(g.next req 1).looked, .paused p.period none, (g.next req 2).looked,
        .paused p.period none, (g.next req 3).looked]
      (.returned ⟨true, 3, now + p.period + p.period - now⟩)
      ⟨now + p.period + p.period, ⟨g.nextId + 1, g.present ++ [g.next req 3]⟩,
        (g.next req 3).state⟩ := by
    refine .poll hbounds ?_
    refine .paused (goes_readyCheck req hready hfresh 0) (not_le_sub_self hbounds.1 now) rfl ?_
    exact .paused (goes_readyCheck req hready hfresh 1) htime rfl
      (.passed (goes_readyCheck req hready hfresh 2))
  have hlast : surroundings.answer (.get (toString g.nextId))
      ⟨g.nextId + 1, g.present ++ [g.next req 3]⟩ =
      (⟨none, .ok (g.next req 4).state⟩, ⟨g.nextId + 1, g.present ++ [g.next req 4]⟩) :=
    answer_of_look (look_nth hfresh)
  have hfinal : p.login? (g.next req 4).state = .ok (some Record.login) := by
    rw [hlogin]
    exact Record.login?_nth _ _ 4 (by decide)
  have hgoes := Provisioner.goes_provision_of_ready (s := ⟨now, g, seen⟩) (answer_create req) hwait
    rfl hlast (Record.isNull_state _) hfinal
  exact hgoes

/-- **A provisioning whose time is up after two looks** takes the guest back.

**Proof sketch.** After the second look the time is up. The deletion then finds the guest that was
added last. -/
theorem goes_provision_of_late (hready : p.isReady = Guest.hasLogin)
    (hbounds : ¬ p.timeout ≤ 0 ∧ ¬ p.period ≤ 0)
    (hfresh : ∀ x ∈ g.present, x.id ≠ toString g.nextId)
    (htime : p.timeout ≤ now + p.period - now) :
    (p.provision surroundings (horizon + 1) req).Goes ⟨now, g, seen⟩
      [.called (.create req) (.ok g.nextHandle), (g.next req 1).looked, .paused p.period none,
        (g.next req 2).looked, .called (.delete (toString g.nextId)) (.ok (.bool true))]
      (.raised (p.overdue (toString g.nextId) (now + p.period - now) (g.next req 2).state))
      ⟨now + p.period, ⟨g.nextId + 1, g.present⟩, (g.next req 2).state⟩ := by
  have hwait : (World.poll surroundings (p.settings (toString g.nextId))
      (p.readyCheck surroundings (toString g.nextId)) (horizon + 1)).Goes
      ⟨now, ⟨g.nextId + 1, g.present ++ [g.next req 0]⟩, .null⟩
      [(g.next req 1).looked, .paused p.period none, (g.next req 2).looked]
      (.returned ⟨false, 2, now + p.period - now⟩)
      ⟨now + p.period, ⟨g.nextId + 1, g.present ++ [g.next req 2]⟩, (g.next req 2).state⟩ := by
    refine .poll hbounds ?_
    exact .paused (goes_readyCheck req hready hfresh 0) (not_le_sub_self hbounds.1 now) rfl
      (.late (goes_readyCheck req hready hfresh 1) htime)
  have hdelete : surroundings.answer (.delete (toString g.nextId))
      ⟨g.nextId + 1, g.present ++ [g.next req 2]⟩ =
      (⟨none, .ok (.bool true)⟩, ⟨g.nextId + 1, g.present⟩) :=
    answer_of_delete (Guests.delete_last (r := g.next req 2) hfresh)
  have hgoes := Provisioner.goes_provision_of_late (s := ⟨now, g, seen⟩) (answer_create req) hwait
    rfl hdelete rfl
  exact hgoes

end New

end Provisioning

/-! ## Teardown -/

section Teardown

variable {d : Dismantler} {g : Guests} {id : String} {now : Float} {seen : Value}
  (horizon : Nat)

/-- A teardown of a guest that is not there. -/
theorem goes_destroy_of_absent (source : Option (OrphanSource (World Guests)))
    (h : g.record? id = none) :
    (d.destroy surroundings source horizon id).Goes ⟨now, g, seen⟩
      [.called (.get id) (.ok .null)]
      (.returned { id, deleted := false, elapsed := now - now }) ⟨now, g, seen⟩ :=
  Dismantler.goes_destroy_of_absent (answer_of_look (Guests.look_of_absent h))

/-- **A teardown of a guest that was looked at four times** does not pause.

**Proof sketch.** After five looks there are no transactions left, so the drain is over at the sixth
one. Looks do not matter to the deletion, by `delete_look`, and a deleted guest is not found any
more. -/
theorem goes_destroy_of_present {hostname : String} {n : Nat} (hpending : d.pending = Guest.pending)
    (hname : d.nameOf = fun guest => (Guest.name guest).map .text)
    (hgone : d.isGone = fun state => .ok state.isNull)
    (hbounds : ¬ d.timeout ≤ 0 ∧ ¬ d.period ≤ 0)
    (h : g.record? id = some (.nth id hostname n)) (hn : 4 ≤ n) :
    (d.destroy surroundings none horizon id).Goes ⟨now, g, seen⟩
      [(Record.nth id hostname (n + 1)).looked, (Record.nth id hostname (n + 2)).looked,
        .called (.delete id) (.ok (.bool true)), .called (.get id) (.ok .null)]
      (.returned { id, deleted := true, elapsed := now - now })
      ⟨now, (g.delete id).2, (Record.nth id hostname (n + 2)).state⟩ := by
  have hfound : (g.look id).2.record? id = some (.nth id hostname (n + 1)) :=
    Guests.record?_look h
  have hdelete : ((g.look id).2.look id).2.delete id = (true, (g.delete id).2) := by
    rw [Guests.delete_look, Guests.delete_look, Guests.delete_of_present h]
  have hnamed : d.nameOf (Record.nth id hostname (n + 1)).state = .ok (.text hostname) := by
    rw [hname]
    exact congrArg (Except.map Value.text) (Record.name_nth id hostname (n + 1))
  have hdrained : d.pending (Record.nth id hostname (n + 2)).state = .ok (.int 0) := by
    rw [hpending]
    exact Record.pending_nth id hostname (n + 2) (by omega)
  have hnull : d.isGone .null = .ok true := by
    rw [hgone]
    rfl
  rw [looked_nth, looked_nth]
  exact Dismantler.goes_destroy_of_drained hbounds (answer_of_look (Guests.look_of_present h)) rfl
    hnamed (answer_of_look (Guests.look_of_present hfound)) rfl hdrained (by decide)
    (answer_of_delete hdelete) rfl
    (answer_of_look (Guests.look_of_absent Guests.record?_delete)) hnull

end Teardown

end NodeKeeper.Simulated
