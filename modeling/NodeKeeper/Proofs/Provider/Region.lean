import Mathlib.Data.List.TakeWhile
import Mathlib.Tactic.Lemma
import NodeKeeper.Provider.Region

/-!
# Written keys, read back

The written form of a name within a region is split at its first slash. It tells the key that it was
written for as long as the region holds no slash and neither part is empty. A text that is not the
written form of such a key is refused.

## Main definitions

* `RegionAndName.Tellable` — the written form of a key tells the key.

## Main results

* `RegionAndName.decode_eq_ok_iff` — which texts are read as which keys.
* `RegionAndName.decode_eq_refuse_iff` — which texts are refused.
* `RegionAndName.decode_encode` — keys are written and read back, and all other texts are refused.
-/

namespace NodeKeeper.RegionAndName

/-- The written form of a key tells the key: its first slash is the one behind the region, and
neither part is empty. -/
def Tellable (k : RegionAndName) : Prop := k.region ≠ "" ∧ '/' ∉ k.region.toList ∧ k.name ≠ ""

variable {k : RegionAndName} {s : String} {region rest : List Char}

/-- The code of a key is its region, a slash and its name. The name may have slashes itself, which
is why decoding stops at the first one. -/
lemma toList_encode (k : RegionAndName) :
    k.encode.toList = k.region.toList ++ '/' :: k.name.toList := by
  simp [encode]

/-! ## The first slash -/

/-- A text without a slash is refused. -/
lemma decode_of_not_mem (h : '/' ∉ s.toList) : decode s = decode.refuse s := by
  have hall : ∀ c ∈ s.toList, (c != '/') = true := fun c hc => by
    rw [bne_iff_ne]
    rintro rfl
    exact h hc
  rw [decode, List.dropWhile_eq_nil_iff.2 hall]

/-- A text with a slash is split at the first one.

**Proof sketch.** The region is what stands before the first slash, and the name is what stands
behind it, since the region has none. -/
lemma decode_of_split (hs : s.toList = region ++ '/' :: rest) (hslash : '/' ∉ region) :
    decode s = if region = [] ∨ rest = [] then decode.refuse s
      else .ok ⟨String.ofList region, String.ofList rest⟩ := by
  have hall : ∀ c ∈ region, (c != '/') = true := fun c hc => by
    rw [bne_iff_ne]
    rintro rfl
    exact hslash hc
  have htake : s.toList.takeWhile (· != '/') = region := by
    rw [hs, List.takeWhile_append_of_pos hall]
    simp
  have hdrop : s.toList.dropWhile (· != '/') = '/' :: rest := by
    rw [hs, List.dropWhile_append_of_pos hall]
    simp
  rw [decode, htake, hdrop]
  cases rest with
  | nil => simp
  | cons c rest => simp [List.isEmpty_iff]

/-! ## What is read, and what is refused -/

/-- **A text is read** as a key if and only if it is the written form of the key and tells it.

**Proof sketch.** A text that is read has a slash, and is split at the first one; the parts are the
key, and its written form is the text. Conversely, the written form of a key is split where it was
put together. -/
theorem decode_eq_ok_iff : decode s = .ok k ↔ k.Tellable ∧ s = k.encode := by
  constructor
  · intro h
    by_cases hmem : '/' ∈ s.toList
    · obtain ⟨region, rest, hs, hslash⟩ := List.eq_append_cons_of_mem hmem
      rw [decode_of_split hs hslash] at h
      split at h
      · exact absurd h (by simp [decode.refuse])
      · next hne =>
        obtain rfl := Except.ok.inj h
        refine ⟨⟨?_, by simpa using hslash, ?_⟩, String.toList_inj.1 ?_⟩
        · simpa using fun hn => hne (.inl hn)
        · simpa using fun hn => hne (.inr hn)
        · rw [toList_encode, String.toList_ofList, String.toList_ofList]
          exact hs
    · rw [decode_of_not_mem hmem] at h
      exact absurd h (by simp [decode.refuse])
  · rintro ⟨⟨hregion, hslash, hname⟩, rfl⟩
    rw [decode_of_split (toList_encode k) hslash, if_neg, String.ofList_toList,
      String.ofList_toList]
    rw [String.toList_eq_nil_iff, String.toList_eq_nil_iff]
    exact not_or.2 ⟨hregion, hname⟩

/-- There is one way to refuse a text. -/
lemma decode_eq_refuse_of_error {f : Fault} (h : decode s = .error f) :
    decode s = decode.refuse s := by
  by_cases hmem : '/' ∈ s.toList
  · obtain ⟨region, rest, hs, hslash⟩ := List.eq_append_cons_of_mem hmem
    rw [decode_of_split hs hslash] at h ⊢
    split at h
    · next hempty => exact if_pos hempty
    · exact absurd h (by simp)
  · exact decode_of_not_mem hmem

/-- **A text is refused** if and only if it has no slash, starts with one, or has nothing behind its
first one.

**Proof sketch.** If there is a slash, `decode_of_split` refuses the text just in case one of the
parts is empty. Each of the three forms is then read off. -/
theorem decode_eq_refuse_iff : decode s = decode.refuse s ↔
    '/' ∉ s.toList ∨ (∃ name, s = "/" ++ name) ∨
      ∃ region, '/' ∉ region.toList ∧ s = region ++ "/" := by
  constructor
  · intro h
    by_cases hmem : '/' ∈ s.toList
    · obtain ⟨region, rest, hs, hslash⟩ := List.eq_append_cons_of_mem hmem
      rw [decode_of_split hs hslash] at h
      split at h
      · next hempty =>
        rcases hempty with rfl | rfl
        · exact .inr (.inl ⟨String.ofList rest, String.toList_inj.1 (by simp [hs])⟩)
        · refine .inr (.inr ⟨String.ofList region, by simpa using hslash, ?_⟩)
          exact String.toList_inj.1 (by simp [hs])
      · exact absurd h (by simp [decode.refuse])
    · exact .inl hmem
  · rintro (hmem | ⟨name, rfl⟩ | ⟨region, hslash, rfl⟩)
    · exact decode_of_not_mem hmem
    · have hsplit : ("/" ++ name).toList = [] ++ '/' :: name.toList := by simp
      rw [decode_of_split hsplit List.not_mem_nil]
      exact if_pos (.inl rfl)
    · have hsplit : (region ++ "/").toList = region.toList ++ ['/'] := by simp
      rw [decode_of_split hsplit hslash]
      exact if_pos (.inr rfl)

/-- **Keys are written and read back.** A key is told by its written form if and only if its region
is not empty and holds no slash and its name is not empty; the name may hold slashes. A text is the
written form of the key that it is read as, or it is refused, and it is refused if and only if it
has no slash, starts with one, or has nothing behind its first one. So no two texts are read as the
same key.

**Proof sketch.** The parts are `decode_eq_ok_iff` and `decode_eq_refuse_iff`. Two texts that are
read as one key are both its written form. -/
theorem decode_encode :
    (∀ k : RegionAndName,
      decode k.encode = .ok k ↔ k.region ≠ "" ∧ '/' ∉ k.region.toList ∧ k.name ≠ "") ∧
    (∀ s, (∃ k, decode s = .ok k ∧ k.encode = s) ∨
      decode s = .error (.badValue s!"expected region/name, got {Text.quoted s}")) ∧
    (∀ s, (∃ f, decode s = .error f) ↔
      '/' ∉ s.toList ∨ (∃ name, s = "/" ++ name) ∨
        ∃ region, '/' ∉ region.toList ∧ s = region ++ "/") ∧
    ∀ s t k, decode s = .ok k → decode t = .ok k → s = t := by
  refine ⟨fun k => ?_, fun s => ?_, fun s => ?_, fun s t k hs ht => ?_⟩
  · rw [decode_eq_ok_iff, eq_self, and_true]
    rfl
  · cases h : decode s with
    | ok k => exact .inl ⟨k, rfl, (decode_eq_ok_iff.1 h).2.symm⟩
    | error f => exact .inr (h.symm.trans (decode_eq_refuse_of_error h))
  · rw [← decode_eq_refuse_iff]
    exact ⟨fun ⟨_, h⟩ => decode_eq_refuse_of_error h, fun h => ⟨_, h⟩⟩
  · rw [(decode_eq_ok_iff.1 hs).2, (decode_eq_ok_iff.1 ht).2]

/-- A name that holds slashes is written and read back. What is written for a region that holds one
is read as another key, and nothing is read from two slashes alone. -/
theorem decode_encode_slashes :
    decode (encode ⟨"RegionOne", "nodes/web"⟩) = .ok ⟨"RegionOne", "nodes/web"⟩ ∧
      decode (encode ⟨"Region/One", "web"⟩) ≠ .ok ⟨"Region/One", "web"⟩ ∧
      (∃ f, decode "//" = .error f) ∧
      ∀ s, decode s = .ok ⟨"RegionOne", "nodes/web"⟩ → s = "RegionOne/nodes/web" := by
  obtain ⟨htold, -, hrefused, hunique⟩ := decode_encode
  have hread := (htold ⟨"RegionOne", "nodes/web"⟩).2 (by decide)
  refine ⟨hread, fun h => ?_, (hrefused "//").2 (.inr (.inl ⟨"/", rfl⟩)), fun s hs => ?_⟩
  · exact absurd ((htold ⟨"Region/One", "web"⟩).1 h) (by decide)
  · exact hunique s _ _ hs hread

end NodeKeeper.RegionAndName
