import NodeKeeper.Proofs.Decimal.Order
import NodeKeeper.Proofs.Identity.Turns

/-!
# Which tokens are handed out

A supplier looks at the token that it gets first. What it gets when it asks a second time is handed
out as it is: a token that was just granted, or one that the cache holds by then. The latter was not
looked at, and it can have expired as well.

## Main definitions

* `Supplier.Source` — where a token comes from that a caller is about to finish with.

## Main results

* `Supplier.begin_done`, `Supplier.resume_done` — with which tokens a turn can end.
* `Supplier.finished_cases` — with which tokens callers can finish in any run.
* `Supplier.finished_stale` — a caller finishes with a token from the cache that has expired.
-/

namespace NodeKeeper.Supplier

open Session (Linked Unladen opened)

variable {σ τ : Type} [Add τ] [Sub τ] [LE τ] [DecidableLE τ] (S : Supplier σ τ)

/-! ## Turns -/

variable {S} in
/-- A turn that ends with looking at a token ends with that token, or with another one that the
cache holds.

**Proof sketch.** Of the outcomes of the look, two end a turn with a token: it has not expired, or
the cache holds another one by now. -/
lemma Inspected.done {c : Credentials} {seen t : Issued τ} {st : Stage σ τ}
    {next : Turn (Issued τ) Phase Credentials} {cache : Cache Credentials (Issued τ) τ}
    (h : Inspected S c seen st next cache) (hn : next = .done (.ok t)) :
    t = seen ∧ t.token.expired st.rest.wall S.margin = false ∨
      seen.token.expired st.rest.wall S.margin = true ∧ (st.lookup c).1 = some t ∧
        t.serial ≠ seen.serial := by
  cases h with
  | valid hx =>
    obtain rfl : seen = t := by simpa using hn
    exact Or.inl ⟨rfl, hx⟩
  | replaced hx hl hs =>
    obtain rfl := Except.ok.inj (Turn.done.inj hn)
    exact Or.inr ⟨hx, hl, hs⟩
  | dropped _ _ _ | joined _ _ _ | started _ _ _ => exact absurd hn (by simp)

/-- A first turn ends with a token that the cache shows and that has not expired.

**Proof sketch.** A first turn ends with a token only if the cache shows one. It cannot be replaced
by another one at once, since the cache shows only one. -/
lemma begin_done {t : Issued τ} {st : Stage σ τ} (hn : (S.begin st).1 = .done (.ok t)) :
    (st.lookup st.rest.active).1 = some t ∧ t.token.expired st.rest.wall S.margin = false := by
  obtain ⟨h, -⟩ := S.begin_spec st
  revert h hn
  generalize (S.begin st).1 = next
  generalize (S.begin st).2.cache = cache
  intro hn h
  cases h with
  | shown hl hi =>
    rcases hi.done hn with ⟨rfl, hx⟩ | ⟨-, hl', hs⟩
    · exact ⟨hl, hx⟩
    · -- the cache shows one token only
      obtain rfl := Option.some.inj (hl.symm.trans hl')
      exact absurd rfl hs
  | joined _ _ | started _ _ => exact absurd hn (by simp)

/-- A turn after a load has ended ends with what the load granted, or, if that has expired, with
another token that the cache shows.

**Proof sketch.** If the phase says that the token is still to be looked at, the outcomes are those
of `Inspected.done`; otherwise the outcome of the load is handed on. -/
lemma resume_done {phase : Phase} {r : Outcome (Issued τ)} {t : Issued τ} {st : Stage σ τ}
    (hn : (S.resume phase r st).1 = .done (.ok t)) :
    r = .ok t ∨ ∃ c seen, phase = .first c ∧ r = .ok seen ∧
      seen.token.expired st.rest.wall S.margin = true ∧ (st.lookup c).1 = some t ∧
        t.serial ≠ seen.serial := by
  unfold resume at hn
  split at hn
  · next c seen =>
    obtain ⟨h, -⟩ := S.inspect_spec c seen st
    rcases h.done hn with ⟨rfl, -⟩ | hother
    · exact Or.inl rfl
    · exact Or.inr ⟨c, seen, rfl, rfl, hother⟩
  · exact Or.inl (Turn.done.inj hn)

/-! ## Runs -/

/-- In every run, callers are linked to the loads that they joined, and leave all jobs to them. -/
lemma linked_after (now : τ) (ttl : Option τ) (name : String) (rest : World σ τ)
    (ms : List (DeskMove σ τ)) :
    Linked ((opened now ttl name rest).after S.client ms) :=
  (Linked.opened now ttl name rest).after S.conduct S.shares
    (Cache.Ledger.Valid.new now ttl name) ms

/-- Callers that ask for tokens leave all jobs to the loads, in every run. -/
lemma unladen_after (now : τ) (ttl : Option τ) (name : String) (rest : World σ τ)
    (ms : List (DeskMove σ τ)) :
    Unladen ((opened now ttl name rest).after S.client ms) := by
  have hopened : Unladen (opened now ttl name rest : Desk σ τ) :=
    fun _ _ h => absurd h (by simp [opened])
  exact hopened.after (fun _ => S.begin_ne_errand) S.resume_ne_errand ms

/-- Where a token comes from that a caller is about to finish with. -/
inductive Source (S : Supplier σ τ) (s : Desk σ τ) (c : Nat) (t : Issued τ) : Prop
  /-- It was granted to a load that the caller waited for. -/
  | granted {l : Nat} {f : Flight Credentials (Issued τ) τ (Grant τ) Credentials}
      (hf : s.flights[l]? = some f) (hc : c ∈ f.waiters) (hp : f.progress = .landed (.ok t))
  /-- The cache shows it, and it has not expired. -/
  | valid (hl : (s.stage.lookup s.stage.rest.active).1 = some t)
      (hx : t.token.expired s.stage.rest.wall S.margin = false)
  /-- The cache shows it, but it was another token that the caller waited for and found expired. -/
  | unseen {k : Credentials} {seen : Issued τ}
      (hc : s.callers[c]? = some (.answered (.ok seen) (.first k)))
      (hx : seen.token.expired s.stage.rest.wall S.margin = true)
      (hl : (s.stage.lookup k).1 = some t) (hs : t.serial ≠ seen.serial)

/-- **With which tokens callers finish.** In every run, a caller that finishes with a token does so
in a turn of its own. The token was granted to a load that the caller waited for, or it is shown by
the cache and has not expired at that moment; unless the caller had waited for another token, which
had expired, while the cache shows this one by now.

**Proof sketch.** By `exists_finishing` the caller finished in a turn of its own. If that was its
first turn, the cache showed a token that had not expired; if it was resumed, `resume_done` says
where the token came from. -/
theorem finished_cases (now : τ) (ttl : Option τ) (name : String) (rest : World σ τ)
    (ms : List (DeskMove σ τ)) (c : Nat)
    (t : Issued τ)
    (h : ((opened now ttl name rest).after S.client ms).callers[c]? = some (.finished (.ok t))) :
    ∃ ms₁ ms₂, ms = ms₁ ++ .turn (.caller c) :: ms₂ ∧
      Source S ((opened now ttl name rest).after S.client ms₁) c t := by
  obtain ⟨ms₁, ms₂, rfl, hbefore, hafter⟩ :=
    Session.exists_finishing (s := opened now ttl name rest) (by simp [opened]) h
  refine ⟨ms₁, ms₂, rfl, ?_⟩
  have hlinked := S.linked_after now ttl name rest ms₁
  have hunladen := S.unladen_after now ttl name rest ms₁
  generalize (opened now ttl name rest).after S.client ms₁ = s at hbefore hafter hlinked hunladen ⊢
  have hstep := Session.callerStep_move (C := S.client) (s := s) c (.turn (.caller c))
  rw [hafter] at hstep
  generalize hx : s.callers[c]? = x at hstep ⊢
  cases hstep with
  | same => exact absurd hx hbefore
  | began phase hlead =>
    obtain ⟨hl, hvalid⟩ := S.begin_done (hlead.eq_done (S.begin_ne_errand s.stage))
    exact .valid hl hvalid
  | resumed r phase hlead =>
    rcases S.resume_done (hlead.eq_done (S.resume_ne_errand phase r s.stage)) with
      rfl | ⟨k, seen, rfl, rfl, hexpired, hl, hs⟩
    · obtain ⟨l, f, hf, hc, hp⟩ := (hlinked.answered c _ phase hx).exists_landed
      exact .granted hf hc hp
    · exact .unseen hx hexpired hl hs
  | settled a job phase r => exact absurd (hunladen c _ hx) (by simp [Caller.isLaden])

/-! ## A token that was not looked at -/

/-- One caller waits for a load that is superseded, another one for the load that comes after it.
The second token is granted first. When the first one is granted at last, both have expired. -/
def overtaken : List (DeskMove Nat Float) :=
  [.spawn .opening, .turn (.caller 0), .turn (.load 0), .edit (.invalidate alice),
    .spawn .opening, .turn (.caller 1), .turn (.load 1),
    .release "g2" ⟨none, [], .ok (.token ⟨.text "second", some 100⟩)⟩, .turn (.load 1),
    .turn (.deliver 1 1), .turn (.caller 1), .stir fun w => { w with wall := 80 },
    .release "g1" ⟨none, [], .ok (.token ⟨.text "first", some 50⟩)⟩, .turn (.load 0),
    .turn (.deliver 0 0), .turn (.caller 0)]

/-- The other caller has waited for the token that it gets. -/
theorem finished_cases_overtaken :
    ∃ ms₁ ms₂, overtaken = ms₁ ++ .turn (.caller 1) :: ms₂ ∧
      Source slow ((opened 0 (some 3600) "tokens" ⟨alice, 0, 0, 0⟩).after slow.client ms₁) 1
        ⟨⟨.text "second", some 100⟩, 0⟩ :=
  finished_cases slow 0 (some 3600) "tokens" ⟨alice, 0, 0, 0⟩ overtaken 1
    ⟨⟨.text "second", some 100⟩, 0⟩ rfl

/-- **A token from the cache that has expired is handed out.** The caller never waited for the load
that it was granted to. -/
theorem finished_stale :
    let s := (opened 0 (some 3600) "tokens" ⟨alice, 0, 0, 0⟩).after slow.client overtaken
    let t : Issued Float := ⟨⟨.text "second", some 100⟩, 0⟩
    s.callers[0]? = some (.finished (.ok t)) ∧
      t.token.expired s.stage.rest.wall slow.margin = true ∧
      (s.stage.lookup alice).1 = some t ∧
      s.flights.map Flight.waiters = [[0], [1]] ∧
      s.flights[1]?.map Flight.progress = some (.landed (.ok t)) :=
  ⟨rfl, by decide, rfl, rfl, rfl⟩

end NodeKeeper.Supplier
