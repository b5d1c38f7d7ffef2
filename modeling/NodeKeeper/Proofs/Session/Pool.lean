import NodeKeeper.Proofs.Session.Callers
import NodeKeeper.Proofs.Session.Conduct

/-!
# Clients that share a cache

Several clients use one cache at the same time. Each caller belongs to one of them and takes its
turns as that client does, and each load does its job for the client of the caller that started it.
Whoever asks for its key meanwhile shares the load, whatever client it belongs to.

## Main definitions

* `Turn.tag` — the turn of a client, as one of many.
* `Client.pool` — clients that share a cache, as one client.
* `Session.Conduct.pool` — the conduct of the pool.

## Implementation notes

The clients share the rest of their world as well. What differs from one client to the other is what
they do, not what they see; what a client sees may change between any two turns.
-/

namespace NodeKeeper

variable {ι σ κ ν τ α φ δ : Type}

/-- The turn of a client, as one of many. -/
def Turn.tag (i : ι) : Turn ν φ δ → Turn ν (ι × φ) (ι × δ)
  | done r => done r
  | wait l job phase => wait l (job.map (i, ·)) (i, phase)
  | errand job phase => errand (i, job) (i, phase)

/-- Clients that share a cache. -/
def Client.pool (C : ι → Client σ κ ν τ α φ δ) : Client σ κ ν τ α (ι × φ) (ι × δ) where
  start p st := (((C p.1).start p.2 st).1.tag p.1, ((C p.1).start p.2 st).2)
  resume p r st := (((C p.1).resume p.2 r st).1.tag p.1, ((C p.1).resume p.2 r st).2)
  call job := (C job.1).call job.2
  conclude job := (C job.1).conclude job.2
  settle p := (C p.1).settle p.2

namespace Turn

variable {i : ι} {next : Turn ν φ δ}

/-- A turn of one supplier has in the pool the accounts that it has alone, of jobs with the tag of
the supplier. -/
lemma accounts_tag {key : ι × δ → κ} : (next.tag i).accounts key =
    next.accounts fun job => key (i, job) := by
  cases next with
  | wait l job phase => cases job <;> rfl
  | done r | errand job phase => rfl

/-- Where the turn of a client leads that does not see to a job of its own. -/
lemma LeadsTo.of_tag {x : Caller κ ν τ α (ι × φ) (ι × δ)} (h : (next.tag i).LeadsTo x) :
    (∃ r, next = .done r ∧ x = .finished r) ∨
      (∃ l job phase, next = .wait l job phase ∧ x = .waiting l (i, phase)) ∨
        ∃ job phase, next = .errand job phase := by
  cases next with
  | done r => exact Or.inl ⟨r, rfl, h⟩
  | wait l job phase => exact Or.inr (Or.inl ⟨l, job, phase, rfl, h⟩)
  | errand job phase => exact Or.inr (Or.inr ⟨job, phase, rfl⟩)

end Turn

namespace Session

variable [DecidableEq κ] [Keylike κ] [Add τ] [LE τ] [DecidableLE τ]
  {C : ι → Client σ κ ν τ α φ δ}

/-- Each caller, and each job, has the conduct of its client. -/
def Conduct.pool (K : ∀ i, Conduct (C i)) : Conduct (Client.pool C) where
  key job := (K job.1).key job.2
  opening p := (K p.1).opening p.2
  resuming p := (K p.1).resuming p.2
  settling p := (K p.1).settling p.2
  start_now p := (K p.1).start_now p.2
  start_course p st flights := by
    rw [Client.pool, Turn.accounts_tag]
    exact (K p.1).start_course p.2 st flights
  resume_now p := (K p.1).resume_now p.2
  resume_course p r st flights := by
    rw [Client.pool, Turn.accounts_tag]
    exact (K p.1).resume_course p.2 r st flights
  settle_now p := (K p.1).settle_now p.2
  settle_course p := (K p.1).settle_course p.2
  call_ledger job := (K job.1).call_ledger job.2
  conclude_ledger job := (K job.1).conclude_ledger job.2

end Session

end NodeKeeper
