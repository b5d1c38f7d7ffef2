import NodeKeeper.Proofs.Node.Removal
import NodeKeeper.Proofs.Provider.KeyPairs
import NodeKeeper.Proofs.Provider.Reports

/-!
# Key pairs and the teardown of their nodes

Key pairs are created under names that the teardown of a node recognises, and it drops them from the
cache under the key that they are kept under. So a key pair that a teardown removes is not handed
out any more, and whoever asks next has a new one created, even if one is still on its way.

## Main results

* `KeyPairs.cleanup_agrees` — what the last node of a group removes, the group forgets.
-/

namespace NodeKeeper.KeyPairs

open Naming (IsGroup IsSuffixText)
open Network (IsKeyPair keyPairKind)
open Session (opened)

variable {σ ρ : Type}

/-- **What a teardown removes is forgotten.** Let the convention be the same for creating key pairs
and for removing them, with a delimiter that cannot be mistaken for a part of a suffix. Then every
key pair that was created for a group is listed with each node of the group, unless the group is in
use, and it is listed under the key that it is kept under. Let a teardown of such a node share the
cache with those who create and get key pairs, whatever they have done by the time that a removal is
answered. Right behind every key pair that it removes, the cache is theirs without what it had of
the group, and the group is forgotten.

**Proof sketch.** The group is the only one that the names of the node and of the key pair can be
split into, so they agree on it, and with it on the key. The moment of a removal shows that the key
is dropped from what the others have made of the cache, and this is one more edit of it. -/
theorem cleanup_agrees (P : KeyPairs ρ Float) {n : Network} (hregion : n.region = P.region)
    (hnaming : n.naming = P.naming) (hmarked : P.naming.Marked) {g s r : String} (hg : IsGroup g)
    (hs : IsSuffixText s) (hr : IsSuffixText r) (env : Surroundings σ) (w : World σ) :
    -- what is listed
    (∀ pairs, n.Reports env g w.backend pairs →
      (∃ v ∈ pairs, IsKeyPair (P.naming.nameFor g r) v) →
        ∃ refs w', n.list env (.text (P.naming.nameFor g s)) w = (.returned refs, w') ∧
          ∃ ref ∈ refs, ref.kind = keyPairKind ∧ ref.id = .text (P.naming.nameFor g r) ∧
            ref.cacheKey = some (P.keyFor g)) ∧
    -- what is forgotten
    ∀ (d : Dismantler) (horizon : Nat) (id : String),
      (∀ v, (env.answer (.get id) w.backend).1.outcome = .ok v → v.isNull = false →
        d.nameOf v = .ok (.text (P.naming.nameFor g s))) →
      ∀ (now : Float) (ttl : Option Float) (name : String) (rest : ρ)
        (ms : World σ → List (StoreMove ρ Float)),
        let store (u : World σ) : Store ρ Float := (opened now ttl name rest).after P.client (ms u)
        let source := n.sourceAmid env fun u => some (store u).stage.cache
        ∀ before i a after, (d.destroy env (some source) horizon id w).2.history =
            w.history ++ (before ++ .called (.deleteKeyPair i) (.ok a) :: after) →
          ∃ u v left so, u.history = w.history ++ (before ++ [.called (.deleteKeyPair i) (.ok a)]) ∧
            v.history = u.history ∧
            d.destroy env (some source) horizon id w = Dismantler.remainder source id w.now left so v ∧
            let dropped := (store u).move P.client (.edit (.invalidate (P.keyFor g)))
            v.cache = some dropped.stage.cache ∧ Forgotten P dropped g := by
  have hkey : P.keyFor g = .place ⟨n.region, n.naming.sharedName g⟩ := by
    rw [hregion, hnaming]
    rfl
  rw [← hnaming] at hmarked ⊢
  have hgroup : n.naming.groupIn? (n.naming.nameFor g s) = some g :=
    (Naming.groupIn?_eq_some_iff hmarked).2 ⟨hg, s, hs, .inl rfl⟩
  refine ⟨fun pairs H => ?_, fun d horizon id hname now ttl name rest ms => ?_⟩
  · rintro ⟨v, hv, hpair⟩
    have hbelongs : n.naming.belongsTo g (n.naming.nameFor g r) = true :=
      (Naming.belongsTo_iff hmarked).2 (Or.inr ⟨hg, r, hr, .inl rfl⟩)
    obtain ⟨refs, w', hlist, hmem⟩ := Network.list_of_reports hgroup H
    exact ⟨refs, w', hlist, _, hmem v hv _ hpair hbelongs, rfl, rfl, congrArg some hkey.symm⟩
  · intro store source before i a after h
    obtain ⟨v, left, so, ⟨hv, u, hu, hcache⟩, hgoes⟩ :=
      Dismantler.exists_moment hgroup hname h
    refine ⟨u, v, left, so, hu, hv.trans hu.symm, hgoes, ?_, ?_⟩
    · rw [hcache, ← hkey]
      exact congrArg some (Stage.cache_invalidate _ _).symm
    · exact forgotten_of_invalidate P g now ttl name rest (ms u)

/-! ## The last node of a group -/

/-- Key pairs that are created at a gate. -/
def gated : KeyPairs Unit Float where
  region := "RegionOne"
  suffix b := ("1a2", b)
  create _ b := (.gate "new", b)

/-- A node of the group `web`, which has nothing to finish. -/
def webNode : Dismantler where
  pending _ := .ok (.int 0)
  nameOf _ := .ok (.text "nodes-web-0")
  isGone v := .ok v.isNull
  timeout := 5.0

/-- The node is found until it is deleted. There are key pairs of its group and of another one. -/
def departing : World Script :=
  { backend :=
      { states := [⟨none, .ok (.text "active")⟩, ⟨none, .ok (.text "active")⟩, ⟨none, .ok .null⟩]
        deleted := [⟨none, .ok (.bool true)⟩]
        keyPairs := (Network.holding ["nodes-db", "nodes-web-1a2"]).backend.keyPairs } }

/-- It is listed what key pairs there are, and nobody can be asked who uses a group. -/
lemma reports_departing : Network.usual.Reports Script.surroundings "web" departing.backend
    [.record [("name", .text "nodes-db")], .record [("name", .text "nodes-web-1a2")]] := by
  refine ⟨⟨[], rfl, by simp⟩, fun h => absurd h (by decide), rfl, fun v hv => ?_⟩
  rcases List.mem_pair.1 hv with rfl | rfl
  · exact ⟨"nodes-db", _, rfl, rfl⟩
  · exact ⟨"nodes-web-1a2", _, rfl, rfl⟩

/-- Somebody waits for a key pair of the group `web`, which is on its way. -/
def amidCreation : List (StoreMove Unit Float) :=
  [.spawn (.get "web"), .turn (.caller 0), .turn (.load 0)]

/-- Meanwhile a node is torn down. -/
def meanwhile : OrphanSource (World Script) :=
  Network.usual.sourceAmid Script.surroundings fun _ =>
    some ((opened 0 none "keys" () : Store Unit Float).after gated.client amidCreation).stage.cache

/-- The key pair arrives, and somebody else comes in. -/
def lateArrival : List (StoreMove Unit Float) :=
  [.release "new" ⟨none, [], .ok (.record [("name", .text "nodes-web-1a2")])⟩, .turn (.load 0),
    .spawn (.get "web")]

/-- What the group `web` had was dropped. -/
def dropped : Store Unit Float :=
  ((opened 0 none "keys" ()).after gated.client amidCreation).move gated.client
    (.edit (.invalidate (gated.keyFor "web")))

/-- In `lateArrival` no caller has a turn, so that whoever arrives there has not asked for anything
yet. -/
lemma not_mem_lateArrival (c : Nat) : .turn (.caller c) ∉ lateArrival := by
  simp [lateArrival]

/-- Nobody has sought the key pair of `web` in `lateArrival`: to seek it is to take a first turn. -/
lemma not_sought_lateArrival : ¬ Sought gated dropped lateArrival "web" := by
  rintro ⟨ms₁, c, ms₂, h, -⟩
  exact not_mem_lateArrival c (h ▸ List.mem_append_right _ List.mem_cons_self)

/-- When the key pair arrives, nobody creates one on request, or puts one in the cache.

**Proof sketch.** No move of the run creates on request, so only an answer with edits could put a
pair. The run has three moves: the start, the landing, whose answer comes without edits, and the
turn of the caller. -/
lemma not_placed_lateArrival (v : Value) : ¬ Placed gated dropped lateArrival "web" v := by
  rintro ⟨ms₁, m, ms₂, h, ⟨c, rfl, -⟩ | hput⟩
  · exact not_mem_lateArrival c (h ▸ List.mem_append_right _ List.mem_cons_self)
  · rcases ms₁ with _ | ⟨_, _ | ⟨_, _ | ⟨_, ms₁⟩⟩⟩
    · obtain ⟨rfl, -⟩ := List.cons.inj h
      exact hput
    · -- the load lands with an answer that came without edits
      obtain ⟨rfl, hrest⟩ := List.cons.inj h
      obtain ⟨rfl, -⟩ := List.cons.inj hrest
      obtain ⟨a, ⟨f, hf, ha⟩, hmem⟩ := hput
      obtain rfl := Option.some.inj hf
      rcases ha with ⟨hfresh, -⟩ | hfreed
      · exact absurd hfresh (by simp)
      · obtain rfl := Progress.freed.inj hfreed
        exact absurd hmem List.not_mem_nil
    · obtain ⟨rfl, hrest⟩ := List.cons.inj h
      obtain ⟨rfl, hlast⟩ := List.cons.inj hrest
      obtain ⟨rfl, -⟩ := List.cons.inj hlast
      exact hput
    · simp [lateArrival] at h

/-- The last node of the group `web` takes the key pair of the group with it, while another one is
on its way. Whoever comes in after that one has arrived has a third one created.

**Proof sketch.** What is listed is `cleanup_agrees`. The removal is found in the history of the
teardown by evaluation, and `cleanup_agrees` tells of this moment that the key is forgotten. The
late arrival neither puts nor seeks the pair, so the last two parts are the remaining cases. -/
theorem cleanup_agrees_departing :
    (∃ refs w', Network.usual.list Script.surroundings (.text "nodes-web-0") departing =
        (.returned refs, w') ∧
      ∃ ref ∈ refs, ref.kind = keyPairKind ∧ ref.id = .text "nodes-web-1a2" ∧
        ref.cacheKey = some (gated.keyFor "web")) ∧
    (∃ v a left so, webNode.destroy Script.surroundings (some meanwhile) 3 "node-1" departing =
        Dismantler.remainder meanwhile "node-1" departing.now left so v ∧
      v.history.getLast? = some (.called (.deleteKeyPair (.text "nodes-web-1a2")) (.ok a)) ∧
      v.cache = some dropped.stage.cache) ∧
    (dropped.after gated.client lateArrival).stage.cache.Lacks (gated.keyFor "web") ∧
    Commissions gated (dropped.after gated.client lateArrival) 1 ⟨"web", "nodes-web-1a2"⟩
      (.get "web") := by
  obtain ⟨hlisted, hforgotten⟩ := cleanup_agrees gated (n := Network.usual) rfl rfl
    (Network.marked_of_dash rfl) (g := "web") (s := "0") (r := "1a2") (by decide) (by decide)
    (by decide) Script.surroundings departing
  refine ⟨hlisted _ reports_departing ⟨_, List.mem_pair.2 (Or.inr rfl), _, rfl, rfl⟩, ?_⟩
  have hmoment := hforgotten webNode 3 "node-1" (fun _ _ _ => rfl) 0 none "keys" ()
    fun _ => amidCreation
  have hremoved : (webNode.destroy Script.surroundings (some meanwhile) 3 "node-1"
      departing).2.history.any (Happening.removesKeyPair "nodes-web-1a2") = true := by
    decide +kernel
  obtain ⟨x, hx, hremoves⟩ := List.any_eq_true.1 hremoved
  obtain ⟨a, rfl⟩ := Happening.eq_of_removesKeyPair hremoves
  obtain ⟨before, after, hsplit⟩ := List.append_of_mem hx
  obtain ⟨u, v, left, so, hu, hv, hgoes, hcache, hforgotten⟩ := hmoment before _ a after hsplit
  refine ⟨⟨v, a, left, so, hgoes, ?_, hcache⟩, ?_, ?_⟩
  · rw [hv, hu]
    simp
  · rcases hforgotten.lasts lateArrival with ⟨w, hplaced⟩ | hsought | hlacks
    · exact absurd hplaced (not_placed_lateArrival w)
    · exact absurd hsought not_sought_lateArrival
    · exact hlacks
  · rcases hforgotten.next lateArrival 1 rfl with ⟨w, hplaced⟩ | hsought | hcreated
    · exact absurd hplaced (not_placed_lateArrival w)
    · exact absurd hsought not_sought_lateArrival
    · exact hcreated

end NodeKeeper.KeyPairs
