import NodeKeeper.Proofs.Node.Alike
import NodeKeeper.Provider.Guest
import NodeKeeper.Provider.Scripted

/-!
# What the log says of the passwords of guests

The state of a guest carries the passwords of its operating system. The log of provisioning and
teardown does not depend on them, with two exceptions: a provisioning that is cancelled while it
waits, and a teardown whose guest is still there in the end, log the last state as it is. In these
two events, and nowhere else, passwords show.

## Main definitions

* `Guest.masked` — the state of a guest whose passwords are made unreadable.
* `Guest.SameEvent` — two events differ at most in the passwords of a state that is shown.
* `Guest.likeness` — two worlds are the same but for passwords.

## Main results

* `Guest.passwords_masked` — masked states have the same passwords, made unreadable.
* `Guest.passwords_show_rarely` — the logs of two runs that differ in passwords only.
* `Guest.password_shows` — a password that is logged.
-/

namespace NodeKeeper

/-! ## Changing a part of a document -/

namespace Value

variable {name other : String} {g : Value → Value}

/-- Changes the fields of a record that have a certain name. -/
def mapField (name : String) (g : Value → Value) : Value → Value
  | record fields => record (fields.map fun f => (f.1, if f.1 = name then g f.2 else f.2))
  | v => v

/-- Changes the elements of a list. -/
def mapItems (g : Value → Value) : Value → Value
  | list items => list (items.map g)
  | v => v

/-- A text that cannot be read any more. It only shows whether it was empty. -/
def blank : Value → Value
  | text s => text (if s = "" then "" else "**********")
  | v => v

/-- In a list of fields of which those of one name were changed, that name finds the changed
value. -/
lemma lookup_map_self (fields : List (String × Value)) :
    (fields.map fun f => (f.1, if f.1 = name then g f.2 else f.2)).lookup name =
      (fields.lookup name).map g := by
  induction fields with
  | nil => rfl
  | cons f rest ih =>
    obtain ⟨n, w⟩ := f
    by_cases h : name = n
    · simp [h]
    · simpa [List.lookup_cons, beq_eq_false_iff_ne.2 h] using ih

/-- Every other name finds what it found before. -/
lemma lookup_map_of_ne (h : other ≠ name) (fields : List (String × Value)) :
    (fields.map fun f => (f.1, if f.1 = name then g f.2 else f.2)).lookup other =
      fields.lookup other := by
  induction fields with
  | nil => rfl
  | cons f rest ih =>
    obtain ⟨n, w⟩ := f
    by_cases hn : other = n
    · simp [← hn, h]
    · simpa [List.lookup_cons, beq_eq_false_iff_ne.2 hn] using ih

/-- To get a field of a record in which it was changed gives the changed value; and if there is no
such field, null, which the change leaves alone. -/
lemma get_mapField_self (hg : g null = null) (v : Value) :
    (mapField name g v).get name = (v.get name).map g := by
  cases v with
  | record fields =>
    simp only [mapField, get, lookup_map_self, Except.map]
    cases fields.lookup name with
    | none => exact congrArg Except.ok hg.symm
    | some w => rfl
  | _ => rfl

/-- To get another field gives what it gave before. -/
lemma get_mapField_of_ne (h : other ≠ name) (v : Value) :
    (mapField name g v).get other = v.get other := by
  cases v with
  | record fields => simp only [mapField, get, lookup_map_of_ne h]
  | _ => rfl

/-- To index a record by a field that was changed gives the changed value, or fails as it did
before. -/
lemma index_mapField_self (v : Value) :
    (mapField name g v).index name = (v.index name).map g := by
  cases v with
  | record fields =>
    simp only [mapField, index, lookup_map_self]
    cases fields.lookup name <;> rfl
  | _ => rfl

/-- To index a record by another field gives what it gave before, or fails alike. -/
lemma index_mapField_of_ne (h : other ≠ name) (v : Value) :
    (mapField name g v).index other = v.index other := by
  cases v with
  | record fields => simp only [mapField, index, lookup_map_of_ne h]
  | _ => rfl

/-- A change to a field leaves null null, and makes nothing else null. -/
@[simp] lemma isNull_mapField (v : Value) : (mapField name g v).isNull = v.isNull := by
  cases v <;> rfl

/-- A record has as many fields after a change as before, so that it counts as true or false
alike. -/
@[simp] lemma isTruthy_mapField (v : Value) : (mapField name g v).isTruthy = v.isTruthy := by
  cases v with
  | record fields => simp [mapField, isTruthy]
  | _ => rfl

/-- A list has as many elements after a change as before, so that it counts as true or false
alike. -/
@[simp] lemma isTruthy_mapItems (v : Value) : (mapItems g v).isTruthy = v.isTruthy := by
  cases v with
  | list items => simp [mapItems, isTruthy]
  | _ => rfl

/-- An empty text stays empty and any other stays a text that is not: what is made unreadable counts
as true or false as before. -/
@[simp] lemma isTruthy_blank (v : Value) : v.blank.isTruthy = v.isTruthy := by
  cases v with
  | text s =>
    by_cases h : s = ""
    · simp [blank, h]
    · simp [blank, isTruthy, h]
  | _ => rfl

/-- A change commutes with a default that it does not touch. -/
lemma orElse_of_isTruthy_eq {v d : Value} (hv : (g v).isTruthy = v.isTruthy) (hd : g d = d) :
    (g v).orElse d = g (v.orElse d) := by
  unfold orElse
  rw [hv]
  split
  · rfl
  · exact hd.symm

/-- One goes through the elements of a changed list and meets them changed. A text is gone through
letter by letter, which is why single texts have to be left as they are. -/
lemma elements_mapItems (hg : ∀ s, g (text s) = text s) (v : Value) :
    (mapItems g v).elements = v.elements.map (List.map g) := by
  cases v with
  | text s => simp [mapItems, elements, Except.map, hg]
  | record fields => simp [mapItems, elements, Except.map, hg]
  | _ => rfl

end Value

/-! ## Masked states -/

namespace Guest

open Value (mapField mapItems blank)

/-- One entry of the list of passwords. -/
def maskedEntry : Value → Value := mapField "password" blank

/-- The operating system of a guest. -/
def maskedSystem : Value → Value := mapField "passwords" (mapItems maskedEntry)

/-- The state of a guest whose passwords are made unreadable. Two states with the same masked state
differ in nothing but passwords that are not empty. -/
def masked : Value → Value := mapField "operatingSystem" maskedSystem

/-- A masked state is null if the state is. -/
@[simp] lemma isNull_masked (v : Value) : (masked v).isNull = v.isNull :=
  Value.isNull_mapField v

/-- **Masked states have the same passwords**, made unreadable.

**Proof sketch.** The passwords are looked up through two fields. Masking leaves the path to them as
it is, whether it exists or not, and maps the entries at its end. -/
theorem passwords_masked (v : Value) :
    passwords (masked v) = (passwords v).map (List.map maskedEntry) := by
  unfold passwords masked
  rw [Value.get_mapField_self rfl]
  cases v.get "operatingSystem" with
  | error f => rfl
  | ok system =>
    have hsystem : (maskedSystem system).orElse (.record []) =
        maskedSystem (system.orElse (.record [])) :=
      Value.orElse_of_isTruthy_eq (Value.isTruthy_mapField system) rfl
    simp only [Except.map, bind, Except.bind, hsystem]
    rw [maskedSystem, Value.get_mapField_self rfl]
    cases (system.orElse (.record [])).get "passwords" with
    | error f => rfl
    | ok listed =>
      have hlisted : (mapItems maskedEntry listed).orElse (.list []) =
          mapItems maskedEntry (listed.orElse (.list [])) :=
        Value.orElse_of_isTruthy_eq (Value.isTruthy_mapItems listed) rfl
      simp only [Except.map, hlisted]
      exact Value.elements_mapItems (fun _ => rfl) _

/-- Whether a state has addresses and passwords can be told without the passwords. -/
lemma hasLogin_masked (v : Value) : hasLogin (masked v) = hasLogin v := by
  unfold hasLogin
  rw [passwords_masked]
  unfold masked
  rw [Value.get_mapField_of_ne (by decide), Value.get_mapField_of_ne (by decide)]
  cases passwords v with
  | error f => rfl
  | ok entries => simp only [Except.map, bind, Except.bind, List.isEmpty_map]

/-- Whether there is a password shows in credentials, the password does not. -/
lemma make_blank (user password : Value) :
    Login.make user password.blank .null =
      (Login.make user password .null).map fun l => { l with password := l.password.blank } := by
  unfold Login.make
  rw [Value.isTruthy_blank]
  split
  · rfl
  · split <;> rfl

/-- From a masked state one reads the login with its password made unreadable, and fails where one
failed before.

**Proof sketch.** By `passwords_masked` the first entry is a masked one. Its name is the same, and
its password is there if it was there before. -/
lemma login?_masked (v : Value) :
    login? (masked v) =
      (login? v).map (Option.map fun l => { l with password := l.password.blank }) := by
  unfold login?
  rw [passwords_masked]
  rcases passwords v with f | _ | ⟨first, rest⟩
  · rfl
  · rfl
  · simp only [Except.map, bind, Except.bind, List.map_cons, maskedEntry]
    rw [Value.index_mapField_of_ne (by decide), Value.index_mapField_self]
    rcases first.index "username" with f | user
    · rfl
    rcases first.index "password" with f | password
    · rfl
    simp only [Except.map, make_blank]
    cases Login.make user password .null <;> rfl

/-- The number of operations that are pending is read without the passwords. -/
lemma pending_masked (v : Value) : pending (masked v) = pending v := by
  unfold pending masked
  rw [Value.get_mapField_of_ne (by decide)]

/-- The name of a guest is read without the passwords. -/
lemma name_masked (v : Value) : name (masked v) = name v := by
  unfold name masked
  cases v with
  | record fields =>
    have hne : "hostname" ≠ "operatingSystem" := by decide
    simp only [mapField, Value.lookup_map_of_ne hne]
  | _ => rfl

/-! ## Runs that differ in passwords -/

/-- The events that show a state as it is. -/
def revealing : List String := ["provision.cancelled", "teardown.still_present"]

/-- Two events are the same, or they show two states that differ in passwords only. -/
def SameEvent (e e' : Log.Event) : Prop :=
  e' = e ∨ e.name ∈ revealing ∧ ∃ fields v v', masked v = masked v' ∧
    e = ⟨e.level, e.name, fields ++ [("last_state", v)]⟩ ∧
    e' = ⟨e.level, e.name, fields ++ [("last_state", v')]⟩

/-- Two worlds are the same but for passwords. -/
def likeness {σ σ' : Type} (backend : σ → σ' → Prop) : Likeness σ σ' where
  backend
  state v v' := masked v = masked v'
  event := SameEvent
  event_refl _ := .inl rfl

section Likeness

variable {σ σ' : Type} {backend : σ → σ' → Prop} {s : Config.Settings}
  {transient : List Fault.Kind}

/-- Of two states with the same masked state both are null, or neither is. -/
lemma isNull_eq_of_masked {v v' : Value} (h : masked v = masked v') : v'.isNull = v.isNull := by
  rw [← isNull_masked v, h, isNull_masked]

/-- The predicates of provisioning do not tell passwords apart.

**Proof sketch.** The predicates are those of `Guest`, and each is compared through the masked
states, on which it gives what it gives on the states themselves. -/
lemma respects_provisioner {p : Provisioner} (hp : provisioner s transient = .ok p) :
    p.Respects (likeness backend) := by
  obtain ⟨⟨timeout, period⟩, -, hp⟩ := exists_of_bind_eq_ok hp
  change Provisioner.check ⟨hasLogin, login?, timeout, period, transient⟩ = .ok p at hp
  unfold Provisioner.check at hp
  split at hp
  · exact absurd hp (by simp)
  · obtain rfl := Except.ok.inj hp
    refine ⟨isNull_eq_of_masked, fun {v v'} h => ?_, fun {v v'} h => ?_, fun fields {v v'} h => ?_⟩
    · exact (hasLogin_masked v').symm.trans (h ▸ hasLogin_masked v)
    · have hlogin := (login?_masked v).symm.trans ((congrArg login? h).trans (login?_masked v'))
      refine (Outcomes.of_map_eq hlogin).imp fun l l' hl => ?_
      cases l <;> cases l' <;> simp only [Option.map, Option.some.injEq, Login.mk.injEq,
        reduceCtorEq] at hl
      · exact .none
      · exact .some hl.1.symm
    · exact .inr ⟨by simp [revealing], fields, v, v', h, rfl, rfl⟩

/-- The predicates of teardown do not tell passwords apart. -/
lemma respects_dismantler {d : Dismantler} (hd : dismantler s transient = .ok d) :
    d.Respects (likeness backend) := by
  obtain ⟨t, -, hd⟩ := exists_of_bind_eq_ok hd
  obtain rfl := Except.ok.inj hd
  refine ⟨isNull_eq_of_masked, fun {v v'} h => ?_, fun {v v'} h => ?_, fun {v v'} h => ?_,
    fun fields {v v'} h => ?_⟩
  · exact (pending_masked v').symm.trans (h ▸ pending_masked v)
  · exact congrArg (Except.map Value.text) ((name_masked v').symm.trans (h ▸ name_masked v))
  · exact congrArg Except.ok (isNull_eq_of_masked h)
  · exact .inr ⟨by simp [revealing], fields, v, v', h, rfl, rfl⟩

end Likeness

/-- Logs that show no state as it is are the same. -/
lemma eq_of_sameEvents {log log' : List Log.Event} (h : List.Forall₂ SameEvent log log')
    (hlog : ∀ e ∈ log, e.name ∉ revealing) : log' = log := by
  induction h with
  | nil => rfl
  | @cons e e' _ _ he _ ih =>
    obtain rfl | ⟨hname, -⟩ := he
    · rw [ih fun e he => hlog e (List.mem_cons_of_mem _ he)]
    · exact absurd hname (hlog e List.mem_cons_self)

/-! ## Scripts -/

/-- A reply with a state whose passwords are made unreadable. -/
def maskedState (r : Reply Value) : Reply Value := { r with outcome := r.outcome.map masked }

/-- A reply with a handle to a guest, whose state is masked. -/
def maskedHandle (r : Reply Handle) : Reply Handle :=
  { r with outcome := r.outcome.map fun h => { h with status := masked h.status } }

/-- A script in which all passwords are made unreadable. Two scripts with the same masked script
differ in nothing but passwords that are not empty. -/
def maskedScript (s : Script) : Script :=
  { s with states := s.states.map maskedState, created := s.created.map maskedHandle }

/-- A script whose steps were all changed gives, step by step, what the script gave, changed. -/
lemma next_map {α : Type} (f : α → α) (d : α) (l : List α) :
    Script.next (f d) (l.map f) = ((f (Script.next d l).1), (Script.next d l).2.map f) := by
  rcases l with _ | ⟨a, _ | ⟨b, rest⟩⟩ <;> rfl

/-- What is next in lists that become the same under a function. -/
lemma next_of_map_eq {α : Type} {f : α → α} {l l' : List α} (d : α) (h : l.map f = l'.map f) :
    f (Script.next d l).1 = f (Script.next d l').1 ∧
      (Script.next d l).2.map f = (Script.next d l').2.map f := by
  have hnext := next_map f d l
  rw [h, next_map f d l'] at hnext
  exact ⟨(congrArg Prod.fst hnext).symm, (congrArg Prod.snd hnext).symm⟩

section Replies

variable {r r' : Reply Value} {h h' : Reply Handle}

/-- Two scripted states that are the same but for passwords take the same time, and come to states
with the same masked state, or to the same fault. -/
lemma outcomes_of_maskedState (hr : maskedState r = maskedState r') :
    r'.took = r.took ∧
      Outcomes (fun v v' => masked v = masked v') Eq r.outcome r'.outcome := by
  simp only [maskedState, Reply.mk.injEq] at hr
  exact ⟨hr.1.symm, .of_map_eq hr.2⟩

/-- So do two scripted creations: they give handles with the same number, and states with the same
masked state. -/
lemma outcomes_of_maskedHandle (hh : maskedHandle h = maskedHandle h') :
    h'.took = h.took ∧
      Outcomes (fun c c' => c'.id = c.id ∧ masked c.status = masked c'.status) Eq
        h.outcome h'.outcome := by
  simp only [maskedHandle, Reply.mk.injEq] at hh
  refine ⟨hh.1.symm, (Outcomes.of_map_eq hh.2).imp fun c c' hc => ?_⟩
  simp only [Handle.mk.injEq] at hc
  exact ⟨hc.1.symm, hc.2⟩

end Replies

/-- **Scripts that differ in passwords only** are alike.

**Proof sketch.** What can show a password are states and handles. The answers with them are taken
off both scripts at once, and remain alike; all others are the same on both sides. -/
theorem script_answers :
    (likeness fun s s' => maskedScript s = maskedScript s').Answers Script.surroundings
      Script.surroundings where
  call c s s' h := by
    obtain ⟨states, created, deleted, policies, keyPairs, inUse, orphans, removal, deletion, pauses,
      cutPause⟩ := s
    obtain ⟨states', created', deleted', policies', keyPairs', inUse', orphans', removal', deletion',
      pauses', cutPause'⟩ := s'
    simp only [likeness, maskedScript, Script.mk.injEq] at h
    obtain ⟨hstates, hcreated, rfl, rfl, rfl, rfl, rfl, rfl, rfl, rfl, rfl⟩ := h
    have hsame {α : Type} (out : Except Fault α) : Outcomes Eq Eq out out := by
      cases out with
      | ok a => exact .ok rfl
      | error f => exact .error rfl
    have hkept {st st' : List (Reply Value)} {cr cr' : List (Reply Handle)}
        (hst : st.map maskedState = st'.map maskedState)
        (hcr : cr.map maskedHandle = cr'.map maskedHandle) (del : List (Reply Value)) :
        maskedScript ⟨st, cr, del, policies, keyPairs, inUse, orphans, removal, deletion, pauses,
            cutPause⟩ =
          maskedScript ⟨st', cr', del, policies, keyPairs, inUse, orphans, removal, deletion, pauses,
            cutPause⟩ := by
      simp only [maskedScript, hst, hcr]
    cases c with
    | get id | getImage id =>
      obtain ⟨hreply, hrest⟩ := next_of_map_eq ⟨none, .ok .null⟩ hstates
      obtain ⟨htook, hout⟩ := outcomes_of_maskedState hreply
      exact ⟨htook, hout, hkept hrest hcreated _⟩
    | create r | createImage source name =>
      obtain ⟨hreply, hrest⟩ := next_of_map_eq ⟨none, .ok { id := "" }⟩ hcreated
      obtain ⟨htook, hout⟩ := outcomes_of_maskedHandle hreply
      exact ⟨htook, hout, hkept hstates hrest _⟩
    | _ => exact ⟨rfl, hsame _, hkept hstates hcreated _⟩
  pause t s s' h := by
    simp only [likeness, maskedScript, Script.mk.injEq] at h
    simp only [likeness, maskedScript, Script.surroundings, Script.mk.injEq]
    obtain ⟨hstates, hcreated, hdeleted, hpolicies, hkeyPairs, hinUse, horphans, hremoval, hdeletion,
      hpauses, hcut⟩ := h
    simp [hstates, hcreated, hdeleted, hpolicies, hkeyPairs, hinUse, horphans, hremoval, hdeletion,
      hpauses, hcut]

/-! ## The log -/

/-- **Passwords show in two events only.** Let the surroundings of two runs answer alike, but for
passwords that are not empty in the states of guests. Then provisioning and teardown end in the same
way in both, with faults of the same kind, and the two logs agree event by event. Only the last
state that is shown when a wait is cancelled, or when a guest is still there in the end, may have
other passwords; logs without these two events are the same.

**Proof sketch.** What the flows ask about a state has the same answer for the masked state. All
that is logged besides states comes from these answers. -/
theorem passwords_show_rarely {σ σ' : Type} (s : Config.Settings) (transient : List Fault.Kind)
    (horizon : Nat) {backend : σ → σ' → Prop} {env : Surroundings σ} {env' : Surroundings σ'}
    (henv : (likeness backend).Answers env env') {w : World σ} {w' : World σ'}
    (hw : (likeness backend).Worlds w w') :
    (∀ p, provisioner s transient = .ok p → ∀ req,
      let r := p.provision env horizon req w
      let r' := p.provision env' horizon req w'
      Endings (fun _ _ => True) Fault.SameKind r.1 r'.1 ∧
        List.Forall₂ SameEvent r.2.log r'.2.log ∧
        ((∀ e ∈ r.2.log, e.name ∉ revealing) → r'.2.log = r.2.log)) ∧
      ∀ d, dismantler s transient = .ok d → ∀ source source',
        Option.Rel (OrphanSource.InStep (likeness backend)) source source' → ∀ id,
        let r := d.destroy env source horizon id w
        let r' := d.destroy env' source' horizon id w'
        Endings Eq Fault.SameKind r.1 r'.1 ∧
          List.Forall₂ SameEvent r.2.log r'.2.log ∧
          ((∀ e ∈ r.2.log, e.name ∉ revealing) → r'.2.log = r.2.log) := by
  constructor
  · intro p hp req
    obtain ⟨hend, H⟩ := Provisioner.inStep_provision (respects_provisioner hp) henv horizon req w w' hw
    exact ⟨hend, H.log, eq_of_sameEvents H.log⟩
  · intro d hd source source' hs id
    obtain ⟨hend, H⟩ := Dismantler.inStep_destroy (respects_dismantler hd) henv hs horizon id w w' hw
    exact ⟨hend, H.log, eq_of_sameEvents H.log⟩

/-- A guest with a password, whose addresses are known or not. -/
def guestWith (password : String) (addresses : List (String × Value)) : Value :=
  .record (addresses ++ [("operatingSystem", .record [("passwords", .list [.record
    [("password", .text password), ("username", .text "root")]])])])

/-- Provisioning of guests as it is configured if nothing is. -/
def usualProvisioner : Provisioner := { isReady := hasLogin, login?, timeout := 1200 }

/-- Teardown of guests as it is configured if nothing is. -/
def usualDismantler : Dismantler :=
  { pending, nameOf := fun guest => (name guest).map .text, timeout := 180 }

/-- The usual bounds on the time to create a node, in seconds. -/
lemma provision_seconds_usual : ({} : Config.Settings).provision.seconds = .ok (1200, 1.0) := by
  have ht : Decimal.thousandths? 1200000 = some 1200 := by decide +kernel
  have hp : Decimal.thousandths? 1000 = some 1.0 := by decide +kernel
  change Config.ProvisionTiming.default.seconds = _
  unfold Config.Timing.seconds Config.secondsOf Config.ProvisionTiming.default
  rw [ht, hp]
  rfl

/-- The usual bounds on the time to drain a node, in seconds. -/
lemma teardown_seconds_usual : ({} : Config.Settings).teardown.seconds = .ok (180, 1.0) := by
  have ht : Decimal.thousandths? 180000 = some 180 := by decide +kernel
  have hp : Decimal.thousandths? 1000 = some 1.0 := by decide +kernel
  change Config.TeardownTiming.default.seconds = _
  unfold Config.Timing.seconds Config.secondsOf Config.TeardownTiming.default
  rw [ht, hp]
  rfl

/-- The usual settings make the usual provisioner. -/
lemma provisioner_usual : provisioner {} [] = .ok usualProvisioner := by
  have hlate : ¬ usualProvisioner.timeout ≤ 0.5 := by decide +kernel
  have hcheck : usualProvisioner.check = .ok usualProvisioner := if_neg hlate
  unfold provisioner
  rw [provision_seconds_usual]
  exact hcheck

/-- The usual settings make the usual dismantler. -/
lemma dismantler_usual : dismantler {} [] = .ok usualDismantler := by
  unfold dismantler
  rw [teardown_seconds_usual]
  rfl

/-- The guest gets its addresses and is ready. -/
def readyScript (password : String) : Script :=
  { states := [⟨none, .ok (guestWith password [])⟩,
      ⟨none, .ok (guestWith password [("primaryBackendIpAddress", .text "10.0.0.2"),
        ("primaryIpAddress", .text "203.0.113.2")])⟩]
    created := [⟨none, .ok { id := "42" }⟩]
    deleted := [⟨none, .ok (.bool false)⟩] }

/-- A guest is provisioned, and is refused to be deleted; the password does not show.

**Proof sketch.** The logs agree by `passwords_show_rarely`, since by evaluation they have no entry
under a revealing name. -/
theorem passwords_show_rarely_ready :
    let provisioned := fun password => (usualProvisioner.provision Script.surroundings 5
      ⟨.record [], "web", "web-1a2"⟩ { backend := readyScript password }).2.log
    let destroyed := fun password => (usualDismantler.destroy Script.surroundings none 5 "42"
      { backend := readyScript password }).2.log
    provisioner {} [] = .ok usualProvisioner ∧ dismantler {} [] = .ok usualDismantler ∧
      ((provisioned "s3cret").map (·.name)).getLast? = some "provision.ready" ∧
      ((destroyed "s3cret").map (·.name)).getLast? = some "teardown.delete_rejected" ∧
      provisioned "hunter2" = provisioned "s3cret" ∧ destroyed "hunter2" = destroyed "s3cret" := by
  intro provisioned destroyed
  have hw : (likeness fun s s' => maskedScript s = maskedScript s').Worlds
      { backend := readyScript "s3cret" } { backend := readyScript "hunter2" } :=
    ⟨rfl, rfl, .nil, rfl, rfl⟩
  obtain ⟨hprovision, hdestroy⟩ := passwords_show_rarely {} [] 5 script_answers hw
  have hprovisioned : ∀ n ∈ (provisioned "s3cret").map (·.name), n ∉ revealing := by
    decide +kernel
  have hdestroyed : ∀ n ∈ (destroyed "s3cret").map (·.name), n ∉ revealing := by decide +kernel
  refine ⟨provisioner_usual, dismantler_usual, by decide +kernel, by decide +kernel, ?_, ?_⟩
  · refine (hprovision usualProvisioner provisioner_usual ⟨.record [], "web", "web-1a2"⟩).2.2 ?_
    exact fun e he => hprovisioned _ (List.mem_map_of_mem he)
  · refine (hdestroy usualDismantler dismantler_usual none none .none "42").2.2 ?_
    exact fun e he => hdestroyed _ (List.mem_map_of_mem he)

/-- **A password that is logged.** A guest has a password, and no addresses yet, when the wait for
it is cancelled. The last state is logged as it is. -/
theorem password_shows :
    let script := fun password => ({
      states := [⟨none, .ok (guestWith password [])⟩, ⟨none, .error .cancellation⟩] } : Script)
    let log := fun password => (usualProvisioner.provision Script.surroundings 5
      ⟨.record [], "web", "web-1a2"⟩ { backend := script password }).2.log
    maskedScript (script "s3cret") = maskedScript (script "hunter2") ∧
      log "s3cret" ≠ log "hunter2" := by
  intro script log
  have hstates : ((log "s3cret").getLast?.bind (·.field? "last_state")).map Value.written ≠
      ((log "hunter2").getLast?.bind (·.field? "last_state")).map Value.written := by
    decide +kernel
  exact ⟨rfl, fun h => hstates (h ▸ rfl)⟩

end Guest

end NodeKeeper
