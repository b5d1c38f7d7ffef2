import NodeKeeper.Proofs.Cache.Kindred
import NodeKeeper.Proofs.Session.Mirror

/-!
# Sessions in which nobody looks

A look at a cache drops entries that have expired. From every run of a session the looks can be
struck out, those that a loader has while it is at work included. What is left comes to a session
that nobody can tell from the first one: callers, loads, gates and turns are the same, and the two
caches are kindred.

## Main definitions

* `Edit.isLook` — the edit is a look.
* `Mirror.blind` — a session, found again in another one in whose answers nobody looks.
* `Mirror.blindTie` — two stages are kindred.
* `Session.blindRun` — a run without its looks.

## Main results

* `Session.Mirrored.blind_move` — one move with its looks, and the same move without.
* `Session.Mirrored.blind_after` — so for every run; and if the clock is not turned back in one of
  the two runs, it is not in the other.
-/

namespace NodeKeeper

/-! ## Without looks -/

/-- The edit is a look. -/
def Edit.isLook {κ ν : Type} : Edit κ ν → Bool
  | lookup _ | keys => true
  | put _ _ | invalidate _ | invalidateAll => false

section Without

variable {σ κ ν τ α φ δ : Type}

/-- An answer in which nobody looks at the cache. -/
def Answer.blind (a : Answer κ ν τ α) : Answer κ ν τ α :=
  { a with edits := a.edits.filter fun e => !e.isLook }

/-- A response in whose answer nobody looks at the cache. -/
def Response.blind : Response κ ν τ α → Response κ ν τ α
  | now a => .now a.blind
  | gate name => .gate name

/-- All is found again as it is, but that nobody looks at the cache in an answer. -/
def Mirror.blind : Mirror κ ν τ α φ δ where
  answer := Answer.blind
  value := id
  phase := id
  job := id

/-- The blind mirror shows outcomes as they are. -/
@[simp] lemma Mirror.blind_outcome (r : Outcome ν) :
    (Mirror.blind : Mirror κ ν τ α φ δ).outcome r = r := by
  cases r <;> rfl

/-- The blind mirror shows the turns of callers as they are. -/
@[simp] lemma Mirror.blind_turn (t : Turn ν φ δ) :
    (Mirror.blind : Mirror κ ν τ α φ δ).turn t = t := by
  cases t with
  | done r => exact congrArg Turn.done (Mirror.blind_outcome (κ := κ) (τ := τ) r)
  | wait l job phase => cases job <;> rfl
  | errand job phase => rfl

/-- A move without looks, if anything is left of it. -/
def Session.Move.blind? : Session.Move σ κ ν τ α φ → Option (Session.Move σ κ ν τ α φ)
  | edit e => if e.isLook then none else some (.edit e)
  | release gate a => some (.release gate a.blind)
  | spawn phase => some (.spawn phase)
  | cancel c => some (.cancel c)
  | elapse later => some (.elapse later)
  | stir f => some (.stir f)
  | schedule queue => some (.schedule queue)
  | turn t => some (.turn t)

/-- A run without its looks. -/
def Session.blindRun (ms : List (Session.Move σ κ ν τ α φ)) : List (Session.Move σ κ ν τ α φ) :=
  ms.filterMap Session.Move.blind?

end Without

variable {σ κ ν τ α φ δ : Type} [Add τ] [LE τ] [DecidableLE τ] [DecidableEq κ] [Keylike κ]

/-! ## Stages -/

namespace Stage.Kindred

variable {st st' : Stage σ κ ν τ}

/-- A look at one of them. -/
lemma look (H : st.Kindred st') {e : Edit κ ν} (he : e.isLook = true) :
    (st.apply e).Kindred st' := by
  cases e with
  | lookup k => exact ⟨H.now, H.rest, H.cache.lookup_left k⟩
  | keys => exact ⟨H.now, H.rest, H.cache.keys_left⟩
  | put _ _ | invalidate _ | invalidateAll => exact absurd he (by simp [Edit.isLook])

/-- Any edit of both.

**Proof sketch.** The cases are those of the edit. Looks are made of one cache after the other, as
each of them makes no difference. -/
lemma apply (H : st.Kindred st') (e : Edit κ ν) : (st.apply e).Kindred (st'.apply e) := by
  cases e with
  | put k v =>
    refine ⟨H.now, H.rest, ?_⟩
    simp only [Stage.apply, Stage.put, ← H.now]
    exact H.cache.put k v
  | invalidate k =>
    refine ⟨by rw [now_apply, now_apply, H.now], by rw [rest_apply, rest_apply, H.rest], ?_⟩
    rw [now_apply, Stage.apply, Stage.apply, cache_invalidate, cache_invalidate]
    exact H.cache.invalidate k
  | invalidateAll => exact ⟨H.now, H.rest, H.cache.invalidateAll⟩
  | lookup _ | keys => exact ((H.look rfl).symm.look rfl).symm

/-- Edits of both, with looks and without. -/
lemma foldl_apply (H : st.Kindred st') (es : List (Edit κ ν)) :
    Stage.Kindred (es.foldl Stage.apply st)
      ((es.filter fun e => !e.isLook).foldl Stage.apply st') := by
  induction es generalizing st st' with
  | nil => exact H
  | cons e es ih =>
    by_cases he : e.isLook = true
    · rw [List.filter_cons_of_neg (by simp [he])]
      exact ih (H.look he)
    · rw [List.filter_cons_of_pos (by simp [he])]
      exact ih (H.apply e)

/-- **An answer is played** in both, with looks and without.

**Proof sketch.** The same time passes in both, in which entries may expire. Then the edits are
made; those that only look leave the caches alike. -/
theorem play [IsTrans τ (· ≤ ·)] (H : st.Kindred st') (a : Answer κ ν τ α)
    (hle : (st.now = (Session.play a st).now ∨ st.now ≤ (Session.play a st).now) ∨
      (st'.now = (Session.play a.blind st').now ∨ st'.now ≤ (Session.play a.blind st').now)) :
    (Session.play a st).Kindred (Session.play a.blind st') := by
  have hsame : (Session.play a.blind st').now = (Session.play a st).now := by
    rw [Session.play, Session.play, now_foldl_apply, now_foldl_apply, Answer.blind]
    cases a.took with
    | none => exact H.now.symm
    | some s => exact congrArg (· + s) H.now.symm
  rw [hsame, ← H.now, or_self, Session.play, now_foldl_apply] at hle
  refine foldl_apply ?_ a.edits
  simp only [Answer.blind]
  cases ht : a.took with
  | none => exact H
  | some s =>
    simp only [ht] at hle
    exact ⟨congrArg (· + s) H.now, H.rest, H.cache.advance hle⟩

/-- A load ends in both. -/
lemma endLoad (H : st.Kindred st') (l : Nat) (r : Outcome ν) :
    (st.endLoad l r).Kindred (st'.endLoad l r) := by
  obtain ⟨hnow, hrest, hcache⟩ := st.endLoad_spec l r
  obtain ⟨hnow', hrest', hcache'⟩ := st'.endLoad_spec l r
  refine ⟨hnow.trans (H.now.trans hnow'.symm), hrest.trans (H.rest.trans hrest'.symm), ?_⟩
  rw [hnow, hcache, hcache', ← H.now]
  exact H.cache.close l r.toOption

end Stage.Kindred

variable [IsTrans τ (· ≤ ·)]

/-- Two stages are tied if they are kindred. They stay so as long as the clock is not turned
back. -/
def Mirror.blindTie : (Mirror.blind : Mirror κ ν τ α φ δ).Tie σ σ where
  Tied := Stage.Kindred
  Timely now later := now = later ∨ now ≤ later
  now_eq H := H.now
  play a _ _ H ht := H.play a ht
  endLoad l r _ _ H := by
    rw [Mirror.blind_outcome]
    exact H.endLoad l r

/-! ## Runs -/

namespace Session.Mirrored

open Mirror (blindTie)

/-- A session in which nothing has happened is one in which nobody has looked. -/
lemma blind_opened (now : τ) (ttl : Option τ) (name : String) (rest : σ) :
    Mirrored blindTie (opened now ttl name rest : Session σ κ ν τ α φ δ)
      (opened now ttl name rest) :=
  ⟨⟨rfl, rfl, Cache.Kindred.new ttl name now⟩, rfl, rfl, rfl, rfl, rfl⟩

variable {s s₀ : Session σ κ ν τ α φ δ} {C C₀ : Client σ κ ν τ α φ δ}
variable (hC : Mirror.blindTie.Kept C C₀) (K : Conduct C) (K₀ : Conduct C₀)

include hC K K₀

/-- **One move** with its looks, and what is left of it without.

**Proof sketch.** A look from outside is left out, and the stages stay alike by `look`. What an
answer brings about is the same but for its looks; all other moves are made in both. -/
theorem blind_move (H : Mirrored blindTie s s₀) (m : Move σ κ ν τ α φ)
    (ht : blindTie.Onward s (s.move C m) s₀ (s₀.after C₀ m.blind?.toList)) :
    Mirrored blindTie (s.move C m) (s₀.after C₀ m.blind?.toList) := by
  cases m with
  | spawn phase => exact H.spawn phase
  | cancel c => exact H.cancel c
  | release gate a => exact H.release gate a
  | edit e =>
    rw [Move.blind?]
    split
    · next he => exact { H with stage := H.stage.look he }
    · exact H.setStage (H.stage.apply e)
  | elapse later =>
    have hlater : s.stage.now = later ∨ s.stage.now ≤ later := by
      rcases ht with ht | ht
      · exact ht
      · rw [H.stage.now]
        exact ht
    exact H.setStage ⟨rfl, H.stage.rest, H.stage.cache.advance hlater⟩
  | stir f => exact H.setStage ⟨H.stage.now, congrArg f H.stage.rest, H.stage.cache⟩
  | schedule queue => exact { H with queue := rfl }
  | turn t => exact H.turn hC K K₀ t ht

/-- **A run** with its looks, and what is left of it without. If the clock is not turned back in one
of them, it is not in the other.

**Proof sketch.** A look takes no time and keeps the caches kindred. Any other move does the same to
both, as long as the clock goes on in one of them, and it goes as far in the other. -/
theorem blind_after (H : Mirrored blindTie s s₀) (ms : List (Move σ κ ν τ α φ))
    (hf : Forward C s ms ∨ Forward C₀ s₀ (blindRun ms)) :
    Mirrored blindTie (s.after C ms) (s₀.after C₀ (blindRun ms)) ∧
      Forward C s ms ∧ Forward C₀ s₀ (blindRun ms) := by
  induction ms generalizing s s₀ with
  | nil => exact ⟨H, trivial, trivial⟩
  | cons m ms ih =>
    cases hm : m.blind? with
    | none =>
      have hrun : blindRun (m :: ms) = blindRun ms := List.filterMap_cons_none hm
      have hnow : (s.move C m).stage.now = s.stage.now := by
        cases m with
        | edit e => exact s.stage.now_apply e
        | spawn _ | cancel _ | release _ _ | elapse _ | stir _ | schedule _ | turn _ =>
          exact absurd hm (by simp [Move.blind?])
      have hmove := H.blind_move hC K K₀ m (Or.inl (Or.inl hnow.symm))
      rw [hm] at hmove
      rw [hrun] at hf ⊢
      obtain ⟨hafter, hforward, hforward₀⟩ := ih hmove (hf.imp_left And.right)
      exact ⟨hafter, ⟨Or.inl hnow.symm, hforward⟩, hforward₀⟩
    | some m₀ =>
      have hrun : blindRun (m :: ms) = m₀ :: blindRun ms := List.filterMap_cons_some hm
      have hmove := H.blind_move hC K K₀ m (by
        rw [hm]
        rw [hrun] at hf
        exact hf.imp And.left And.left)
      rw [hm] at hmove
      rw [hrun] at hf ⊢
      obtain ⟨hafter, hforward, hforward₀⟩ := ih hmove (hf.imp And.right And.right)
      have hsame : (s.stage.now = (s.move C m).stage.now ∨ s.stage.now ≤ (s.move C m).stage.now) ↔
          (s₀.stage.now = (s₀.move C₀ m₀).stage.now ∨
            s₀.stage.now ≤ (s₀.move C₀ m₀).stage.now) := by
        rw [H.stage.now, hmove.stage.now]
        rfl
      have hon := hf.elim And.left fun h => hsame.2 h.1
      exact ⟨hafter, ⟨hon, hforward⟩, hsame.1 hon, hforward₀⟩

end Session.Mirrored

end NodeKeeper
