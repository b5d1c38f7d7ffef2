import Mathlib.Data.List.Infix
import Mathlib.Data.List.TakeWhile
import Mathlib.Tactic.Lemma
import NodeKeeper.Naming

/-!
# Which names a convention recognises

The group of a unique name is looked for from the right: a suffix, a delimiter in front of it, and
the longest group before that. If the delimiter cannot be mistaken for a part of a suffix, a name
can be split in one way only, although its group may hold delimiters and look like a unique name
itself.

## Main definitions

* `Naming.IsSuffixText` — a text is a suffix.
* `Naming.IsGroup` — a text is a group that a name can tell.
* `Naming.Marked` — the delimiter cannot be mistaken for a part of a suffix.

## Main results

* `Naming.split_unique` — a name can be split in one way only.
* `Naming.groupIn?_eq_some_iff` — the names in which a group is found.
* `Naming.belongsTo_iff` — the names that belong to a group.
* `Naming.belongsTo_sharedName_iff`, `Naming.belongsTo_nameFor_iff` — the names of one group that
  belong to another one.
* `Naming.groupIn?_nameFor` — unique names tell the group that they were built for.
* `Naming.recognised_iff_built` — which of the names that are recognised were built.

## Implementation notes

The lemmas on lists of characters follow the functions that read names; the results are about texts.
A name that ends with a line end is read as if it were not there, which shows in all of them.
-/

namespace NodeKeeper.Naming

/-- A text is a suffix. -/
def IsSuffixText (s : String) : Prop := s ≠ "" ∧ ∀ x ∈ s.toList, isHex x = true

-- the characters of the text are gone through, not all that there are
instance (s : String) : Decidable (IsSuffixText s) :=
  have : Decidable (∀ x ∈ s.toList, isHex x = true) := List.decidableBAll _ _
  inferInstanceAs (Decidable (_ ∧ _))

/-- A text is a group that a name can tell: it is not empty and holds no line end. -/
def IsGroup (g : String) : Prop := g ≠ "" ∧ '\n' ∉ g.toList

instance (g : String) : Decidable (IsGroup g) := inferInstanceAs (Decidable (_ ∧ _))

/-- The delimiter has a character that no suffix has. -/
def Marked (c : Naming) : Prop := ∃ x ∈ c.delimiter.toList, isHex x = false

/-! ## Reading from the right -/

section Characters

variable {part delimiter cs rest rest' g g' s s' : List Char}

/-- A text loses its lead with a certain rest if and only if it is the lead and then this rest. -/
lemma dropLead?_eq_some_iff : dropLead? part cs = some rest ↔ cs = part ++ rest := by
  unfold dropLead?
  constructor
  · intro h
    split at h
    · next hp =>
      rw [← Option.some.inj h]
      exact List.prefix_append_drop (List.isPrefixOf_iff_prefix.1 hp)
    · simp at h
  · rintro rfl
    simp

/-- A suffix may have one line end behind it.

**Proof sketch.** A text splits into the digits that it begins with and the rest. It is a suffix if
there are digits, and the rest is nothing or a single line end; a line end is no digit, so that the
split can be read backwards. -/
lemma isSuffix_iff : isSuffix cs = true ↔
    ∃ s, s ≠ [] ∧ (∀ x ∈ s, isHex x = true) ∧ (cs = s ∨ cs = s ++ ['\n']) := by
  have hline : isHex '\n' = false := by decide
  simp only [isSuffix, Bool.and_eq_true, Bool.not_eq_eq_eq_not, Bool.not_true,
    List.isEmpty_eq_false_iff, Bool.or_eq_true, beq_iff_eq]
  constructor
  · rintro ⟨hne, hrest⟩
    have hsplit : cs.takeWhile isHex ++ cs.dropWhile isHex = cs := List.takeWhile_append_dropWhile
    refine ⟨cs.takeWhile isHex, hne, fun x hx => List.mem_takeWhile_imp hx, ?_⟩
    rcases hrest with hnil | hend
    · rw [hnil, List.append_nil] at hsplit
      exact Or.inl hsplit.symm
    · rw [hend] at hsplit
      exact Or.inr hsplit.symm
  · rintro ⟨s, hne, hs, rfl | rfl⟩
    · rw [List.takeWhile_eq_self_iff.2 hs, List.dropWhile_eq_nil_iff.2 hs]
      exact ⟨hne, Or.inl rfl⟩
    · rw [List.takeWhile_append_of_pos hs, List.dropWhile_append_of_pos hs]
      simp [hne, hline]

/-- A text is a tail if and only if it is the delimiter and then a suffix that is not empty, of
digits and small letters up to f. A newline may stand behind it, as the pattern ends before it.

**Proof sketch.** The delimiter is taken off from the front, and what is left is a suffix by
`isSuffix_iff`. -/
lemma isTail_iff : isTail delimiter cs = true ↔
    ∃ s, s ≠ [] ∧ (∀ x ∈ s, isHex x = true) ∧
      (cs = delimiter ++ s ∨ cs = delimiter ++ s ++ ['\n']) := by
  unfold isTail
  constructor
  · intro h
    split at h
    · next rest hd =>
      obtain ⟨s, hne, hs, hrest⟩ := isSuffix_iff.1 h
      refine ⟨s, hne, hs, ?_⟩
      rw [dropLead?_eq_some_iff.1 hd]
      rcases hrest with rfl | rfl
      · exact Or.inl rfl
      · exact Or.inr (by rw [List.append_assoc])
    · simp at h
  · rintro ⟨s, hne, hs, hcs⟩
    obtain ⟨rest, rfl, hrest⟩ :
        ∃ rest, cs = delimiter ++ rest ∧ (rest = s ∨ rest = s ++ ['\n']) := by
      rcases hcs with rfl | rfl
      · exact ⟨s, rfl, Or.inl rfl⟩
      · exact ⟨s ++ ['\n'], by rw [List.append_assoc], Or.inr rfl⟩
    rw [dropLead?_eq_some_iff.2 rfl]
    exact isSuffix_iff.2 ⟨s, hne, hs, hrest⟩

/-- A group that is found is followed by a tail.

**Proof sketch.** Induction on the length up to which groups are tried. A group that is found is
what stands before a tail; it is not empty, as no tail would be left of an empty text. -/
lemma longestGroup?_eq_some {n : Nat} (h : longestGroup? delimiter cs n = some g) :
    g ≠ [] ∧ '\n' ∉ g ∧ ∃ rest, cs = g ++ rest ∧ isTail delimiter rest = true := by
  induction n with
  | zero => simp [longestGroup?] at h
  | succ n ih =>
    rw [longestGroup?] at h
    split at h
    · next hk =>
      obtain rfl := Option.some.inj h
      simp only [Bool.and_eq_true, Bool.not_eq_eq_eq_not, Bool.not_true,
        List.contains_eq_mem, decide_eq_false_iff_not] at hk
      refine ⟨fun hnil => ?_, hk.1, cs.drop (n + 1), (List.take_append_drop _ _).symm, hk.2⟩
      -- an empty group would leave nothing for the tail
      obtain ⟨s, hne, -, htail⟩ := isTail_iff.1 hk.2
      obtain rfl : cs = [] := (List.take_eq_nil_iff.1 hnil).resolve_left (Nat.succ_ne_zero n)
      rw [List.drop_nil] at htail
      rcases htail with h' | h'
      · exact hne (List.append_eq_nil_iff.1 h'.symm).2
      · exact List.cons_ne_nil _ _ (List.append_eq_nil_iff.1 h'.symm).2
    · exact ih h

/-- If some group is followed by a tail, a group is found.

**Proof sketch.** The induction is on the length that is tried. As long as it exceeds that of the
group, the next smaller one is tried; at its length the tail fits. -/
lemma exists_longestGroup? {n : Nat} (hg : g ≠ []) (hline : '\n' ∉ g)
    (hrest : isTail delimiter rest = true) (hn : g.length ≤ n) :
    ∃ g', longestGroup? delimiter (g ++ rest) n = some g' := by
  induction n with
  | zero => exact absurd (List.length_eq_zero_iff.1 (Nat.le_zero.1 hn)) hg
  | succ n ih =>
    rw [longestGroup?]
    split
    · exact ⟨_, rfl⟩
    · next hk =>
      refine ih (Nat.lt_succ_iff.1 (Nat.lt_of_le_of_ne hn fun hlen => hk ?_))
      have hlen' : g.length = n + 1 := hlen
      rw [← hlen', List.take_left, List.drop_left]
      simp [hline, hrest]

/-- Behind a delimiter that has a character which no suffix has, there is one suffix only.

**Proof sketch.** Read from the right, both texts have the same digits at their end. These are those
of the suffix, and then those at the end of the delimiter, which do not reach beyond it; so the
suffixes are the same, and with them the groups. -/
lemma split_unique (hd : ∃ x ∈ delimiter, isHex x = false) (hs : ∀ x ∈ s, isHex x = true)
    (hs' : ∀ x ∈ s', isHex x = true) (h : g ++ delimiter ++ s = g' ++ delimiter ++ s') :
    g = g' ∧ s = s' := by
  -- from the right, the hexadecimal digits end within the delimiter
  have hread (a b : List Char) (hb : ∀ x ∈ b, isHex x = true) :
      (a ++ delimiter ++ b).reverse.takeWhile isHex =
        b.reverse ++ delimiter.reverse.takeWhile isHex := by
    have hshort : (delimiter.reverse.takeWhile isHex).length ≠ delimiter.reverse.length := by
      intro hlen
      obtain ⟨x, hx, hhex⟩ := hd
      have hall := List.takeWhile_eq_self_iff.1
        ((List.takeWhile_prefix isHex).eq_of_length hlen) x (List.mem_reverse.2 hx)
      simp [hhex] at hall
    rw [List.reverse_append, List.reverse_append,
      List.takeWhile_append_of_pos (fun x hx => hb x (List.mem_reverse.1 hx)),
      List.takeWhile_append, if_neg hshort]
  have hrev := congrArg (fun l => l.reverse.takeWhile isHex) h
  simp only [hread g s hs, hread g' s' hs'] at hrev
  obtain rfl := List.reverse_inj.1 (List.append_cancel_right hrev)
  exact ⟨List.append_cancel_right (List.append_cancel_right h), rfl⟩

/-- No suffix ends with a line end. -/
lemma append_suffix_ne (hne : s ≠ []) (hs : ∀ x ∈ s, isHex x = true) :
    g ++ s ≠ g' ++ ['\n'] := by
  intro h
  obtain ⟨init, x, rfl⟩ := (List.eq_nil_or_concat' s).resolve_left hne
  rw [← List.append_assoc] at h
  obtain rfl : x = '\n' := List.singleton_inj.1 (List.append_inj' h rfl).2
  exact absurd (hs '\n' (by simp)) (by decide)

/-- Only one group is followed by a tail.

**Proof sketch.** Each of the tails is a delimiter and a suffix, and maybe a line end. The line ends
are both there or both missing, since a suffix has none; then the delimiters are at the same place,
by `split_unique`. -/
lemma group_unique (hd : ∃ x ∈ delimiter, isHex x = false) (h : g ++ rest = g' ++ rest')
    (hrest : isTail delimiter rest = true) (hrest' : isTail delimiter rest' = true) : g = g' := by
  obtain ⟨s, hne, hs, htail⟩ := isTail_iff.1 hrest
  obtain ⟨s', hne', hs', htail'⟩ := isTail_iff.1 hrest'
  rcases htail with rfl | rfl <;> rcases htail' with rfl | rfl
  · rw [← List.append_assoc, ← List.append_assoc] at h
    exact (split_unique hd hs hs' h).1
  · simp only [← List.append_assoc] at h
    exact absurd h (append_suffix_ne hne hs)
  · simp only [← List.append_assoc] at h
    exact absurd h.symm (append_suffix_ne hne' hs')
  · simp only [← List.append_assoc] at h
    exact (split_unique hd hs hs' (List.append_cancel_right h)).1

end Characters

/-! ## Names -/

section Names

variable {c : Naming} {g h s t name : String}

/-- The letters of a shared name: the lead with its delimiter, and then the group. -/
@[simp] lemma toList_sharedName (c : Naming) (g : String) :
    (c.sharedName g).toList = (c.lead ++ c.delimiter).toList ++ g.toList := by
  simp [sharedName]

/-- The letters of a name of a group: the shared name, the delimiter, and then the suffix. -/
@[simp] lemma toList_nameFor (c : Naming) (g s : String) :
    (c.nameFor g s).toList =
      (c.lead ++ c.delimiter).toList ++ (g.toList ++ (c.delimiter.toList ++ s.toList)) := by
  simp [nameFor]

/-- Groups are the same if and only if their shared names are. -/
lemma sharedName_inj : c.sharedName g = c.sharedName h ↔ g = h := by
  rw [← String.toList_inj, toList_sharedName, toList_sharedName, List.append_cancel_left_eq,
    String.toList_inj]

/-- A suffix is not empty. -/
lemma IsSuffixText.toList_ne_nil (hs : IsSuffixText s) : s.toList ≠ [] :=
  fun hn => hs.1 (String.toList_eq_nil_iff.1 hn)

/-- Nor is a group. -/
lemma IsGroup.toList_ne_nil (hg : IsGroup g) : g.toList ≠ [] :=
  fun hn => hg.1 (String.toList_eq_nil_iff.1 hn)

/-- A group is found only in its unique names, with or without a line end behind them.

**Proof sketch.** The prefix is taken off first, and then the longest group that has a tail behind
it is found. The tail is the delimiter and a suffix, so that the parts make up a unique name, with
or without a line end. -/
lemma exists_of_groupIn? (hg : c.groupIn? name = some g) :
    IsGroup g ∧ ∃ s, IsSuffixText s ∧ (name = c.nameFor g s ∨ name = c.nameFor g s ++ "\n") := by
  unfold groupIn? at hg
  split at hg
  · next body hbody =>
    obtain ⟨cs, hcs, rfl⟩ := Option.map_eq_some_iff.1 hg
    obtain ⟨hne, hline, rest, rfl, hrest⟩ := longestGroup?_eq_some hcs
    obtain ⟨s, hsne, hs, htail⟩ := isTail_iff.1 hrest
    have hname := dropLead?_eq_some_iff.1 hbody
    refine ⟨⟨fun hn => hne (by simpa using hn), by simpa using hline⟩, String.ofList s,
      ⟨fun hn => hsne (by simpa using hn), by simpa using hs⟩, ?_⟩
    rw [← String.toList_inj, ← String.toList_inj, String.toList_append, toList_nameFor, hname]
    rcases htail with rfl | rfl
    · exact Or.inl (by simp)
    · exact Or.inr (by simp)
  · simp at hg

/-- **A group is found** in its unique names, with or without a line end behind them, and in no
other name.

**Proof sketch.** The longest group that a tail follows is the only one, because the delimiter ends
the digits of the suffix. -/
theorem groupIn?_eq_some_iff (hc : c.Marked) : c.groupIn? name = some g ↔
    IsGroup g ∧ ∃ s, IsSuffixText s ∧ (name = c.nameFor g s ∨ name = c.nameFor g s ++ "\n") := by
  refine ⟨exists_of_groupIn?, ?_⟩
  rintro ⟨hg, s, hs, hname⟩
  obtain ⟨rest, hrest, hlist⟩ : ∃ rest, isTail c.delimiter.toList rest = true ∧
      name.toList = (c.lead ++ c.delimiter).toList ++ (g.toList ++ rest) := by
    rcases hname with rfl | rfl
    · exact ⟨_, isTail_iff.2 ⟨s.toList, hs.toList_ne_nil, hs.2, Or.inl rfl⟩, toList_nameFor c g s⟩
    · exact ⟨_, isTail_iff.2 ⟨s.toList, hs.toList_ne_nil, hs.2, Or.inr rfl⟩, by simp⟩
  obtain ⟨g', hg'⟩ := exists_longestGroup? hg.toList_ne_nil hg.2 hrest
    (n := (g.toList ++ rest).length) (by simp)
  obtain ⟨-, -, rest', hsplit, hrest'⟩ := longestGroup?_eq_some hg'
  obtain rfl := group_unique hc hsplit hrest hrest'
  rw [groupIn?, dropLead?_eq_some_iff.2 hlist]
  dsimp only
  rw [hg', Option.map_some, String.ofList_toList]

/-- Unique names are built from one group and one suffix only. -/
lemma nameFor_inj (hc : c.Marked) (hs : IsSuffixText s) (ht : IsSuffixText t) :
    c.nameFor g s = c.nameFor h t ↔ g = h ∧ s = t := by
  refine ⟨fun hname => ?_, fun ⟨hg, hs⟩ => hg ▸ hs ▸ rfl⟩
  have hlist := String.toList_inj.2 hname
  simp only [toList_nameFor, List.append_cancel_left_eq] at hlist
  rw [← List.append_assoc, ← List.append_assoc] at hlist
  exact (split_unique hc hs.2 ht.2 hlist).imp String.toList_inj.1 String.toList_inj.1

/-- Unique names do not end with a line end. -/
lemma nameFor_ne_line (hs : IsSuffixText s) : c.nameFor g s ≠ c.nameFor h t ++ "\n" := by
  intro hname
  have hlist := String.toList_inj.2 hname
  simp only [toList_nameFor, String.toList_append, ← List.append_assoc] at hlist
  exact append_suffix_ne hs.toList_ne_nil hs.2 hlist

/-! ## Names of other groups -/

/-- The names that belong to a group. -/
lemma belongsTo_iff (hc : c.Marked) : c.belongsTo g name = true ↔
    name = c.sharedName g ∨ IsGroup g ∧
      ∃ s, IsSuffixText s ∧ (name = c.nameFor g s ∨ name = c.nameFor g s ++ "\n") := by
  rw [belongsTo, Bool.or_eq_true, beq_iff_eq, beq_iff_eq, groupIn?_eq_some_iff hc]

/-- The shared name of another group belongs to a group if and only if it is one of its unique
names.

**Proof sketch.** By `belongsTo_iff` it is the shared name of the group, which is excluded as the
groups differ, or a unique name of it, with or without a line end. As the prefix is the same, the
other group is what follows it; and a group has no line end. -/
theorem belongsTo_sharedName_iff (hc : c.Marked) (hg : IsGroup g) (hh : IsGroup h) (hne : g ≠ h) :
    c.belongsTo g (c.sharedName h) = true ↔
      ∃ s, IsSuffixText s ∧ h = g ++ c.delimiter ++ s := by
  have hunique (s : String) : c.sharedName h = c.nameFor g s ↔ h = g ++ c.delimiter ++ s := by
    rw [← String.toList_inj, ← String.toList_inj]
    simp
  rw [belongsTo_iff hc, or_iff_right fun he => hne (sharedName_inj.1 he).symm]
  constructor
  · rintro ⟨-, s, hs, hname | hname⟩
    · exact ⟨s, hs, (hunique s).1 hname⟩
    · -- a group holds no line end
      refine absurd ?_ hh.2
      have hlist := String.toList_inj.2 hname
      simp only [toList_sharedName, String.toList_append, toList_nameFor, List.append_assoc,
        List.append_cancel_left_eq] at hlist
      rw [hlist]
      simp
  · rintro ⟨s, hs, he⟩
    exact ⟨hg, s, hs, Or.inl ((hunique s).2 he)⟩

/-- A unique name of another group belongs to a group if and only if it is its shared name. -/
theorem belongsTo_nameFor_iff (hc : c.Marked) (hne : g ≠ h) (ht : IsSuffixText t) :
    c.belongsTo g (c.nameFor h t) = true ↔ g = h ++ c.delimiter ++ t := by
  have hshared : c.nameFor h t = c.sharedName g ↔ g = h ++ c.delimiter ++ t := by
    rw [← String.toList_inj, ← String.toList_inj, eq_comm]
    simp
  rw [belongsTo_iff hc, hshared]
  refine or_iff_left ?_
  rintro ⟨-, s, hs, hname | hname⟩
  · exact hne ((nameFor_inj hc ht hs).1 hname).1.symm
  · exact nameFor_ne_line ht hname

/-! ## There and back -/

/-- **Names tell their group.** If the delimiter has a character that no suffix has, names can be
built and read back, whatever else lead, delimiter and group hold: the group of a unique name is
the one that it was built for, unless no name can tell that group, and then there is none. Two
unique names are the same only if their groups and their suffixes are.

**Proof sketch.** The name is one in which its own group is found (`groupIn?_eq_some_iff`), and any
group that is found in it splits it in another way, which `nameFor_inj` rules out. -/
theorem groupIn?_nameFor {lead delimiter : String} (hlead : lead ≠ "")
    (hmark : ∃ x ∈ delimiter.toList, isHex x = false) :
    ∃ c, make lead delimiter = .ok c ∧ ∀ g s, IsSuffixText s →
      c.nameFor g s = lead ++ delimiter ++ g ++ delimiter ++ s ∧
      c.groupIn? (c.nameFor g s) = (if IsGroup g then some g else none) ∧
      ∀ h t, IsSuffixText t → c.nameFor g s = c.nameFor h t → g = h ∧ s = t := by
  have hc : (⟨lead, delimiter⟩ : Naming).Marked := hmark
  refine ⟨⟨lead, delimiter⟩, if_neg hlead, fun g s hs => ⟨rfl, ?_, fun h t ht hname =>
    (nameFor_inj hc hs ht).1 hname⟩⟩
  split
  · next hg => exact (groupIn?_eq_some_iff hc).2 ⟨hg, s, hs, Or.inl rfl⟩
  · next hg =>
    refine Option.eq_none_iff_forall_ne_some.2 fun h hfound => ?_
    obtain ⟨hh, t, ht, hname | hname⟩ := (groupIn?_eq_some_iff hc).1 hfound
    · exact hg (((nameFor_inj hc hs ht).1 hname).1 ▸ hh)
    · exact nameFor_ne_line hs hname

/-- Here the delimiter begins and ends with a digit of suffixes, and the group looks like a unique
name itself. -/
theorem groupIn?_nameFor_overlapping :
    ∃ c, make "a.*" "a-a" = .ok c ∧
      c.groupIn? (c.nameFor "a.*a-aa-aa-ab" "a0") = some "a.*a-aa-aa-ab" ∧
      c.groupIn? (c.nameFor "" "a0") = none := by
  obtain ⟨c, hc, hread⟩ := @groupIn?_nameFor "a.*" "a-a" (by decide) ⟨'-', by decide, by decide⟩
  have hs : IsSuffixText "a0" := by decide
  refine ⟨c, hc, ?_, ?_⟩
  · exact (hread _ _ hs).2.1.trans (if_pos (by decide))
  · exact (hread _ _ hs).2.1.trans (if_neg (by decide))

/-! ## Names that were not built -/

/-- Only unique names tell a group, unless a line end is behind them. -/
lemma eq_nameFor_of_groupIn? (hline : name.toList.getLast? ≠ some '\n')
    (hg : c.groupIn? name = some g) : ∃ s, IsSuffixText s ∧ name = c.nameFor g s := by
  obtain ⟨-, s, hs, hname⟩ := exists_of_groupIn? hg
  refine ⟨s, hs, hname.resolve_right ?_⟩
  rintro rfl
  exact hline (by simp)

/-- **What is recognised was built, up to a line end.** If the delimiter has a character that no
suffix has, a group is found in its unique names, with or without a line end behind them, and in no
other name; and the names that belong to a group are these and its shared name. So a name that does
not end with a line end is recognised only if it was built for the group, and a unique name with a
line end behind it is recognised although it was not built for any group.

**Proof sketch.** As the delimiter is marked, `groupIn?_eq_some_iff` and `belongsTo_iff` say what is
recognised. A unique name ends with a suffix and hence not with a line end, so that a name with one
was not built. -/
theorem recognised_iff_built {lead delimiter : String} (hlead : lead ≠ "")
    (hmark : ∃ x ∈ delimiter.toList, isHex x = false) :
    ∃ c, make lead delimiter = .ok c ∧ ∀ g name,
      (c.groupIn? name = some g ↔
        IsGroup g ∧ ∃ s, IsSuffixText s ∧ (name = c.nameFor g s ∨ name = c.nameFor g s ++ "\n")) ∧
      (c.belongsTo g name = true ↔
        name = c.sharedName g ∨ IsGroup g ∧
          ∃ s, IsSuffixText s ∧ (name = c.nameFor g s ∨ name = c.nameFor g s ++ "\n")) ∧
      (name.toList.getLast? ≠ some '\n' →
        (c.groupIn? name = some g → ∃ s, IsSuffixText s ∧ name = c.nameFor g s) ∧
        (c.belongsTo g name = true →
          name = c.sharedName g ∨ ∃ s, IsSuffixText s ∧ name = c.nameFor g s)) ∧
      ∀ s, IsGroup g → IsSuffixText s → c.groupIn? (c.nameFor g s ++ "\n") = some g ∧
        ∀ h t, IsSuffixText t → c.nameFor g s ++ "\n" ≠ c.nameFor h t := by
  have hc : (⟨lead, delimiter⟩ : Naming).Marked := hmark
  refine ⟨⟨lead, delimiter⟩, if_neg hlead, fun g name => ⟨groupIn?_eq_some_iff hc,
    belongsTo_iff hc, fun hline => ⟨eq_nameFor_of_groupIn? hline, fun hbelongs => ?_⟩,
    fun s hg hs => ⟨?_, fun h t ht hname => nameFor_ne_line ht hname.symm⟩⟩⟩
  · rw [belongsTo, Bool.or_eq_true, beq_iff_eq, beq_iff_eq] at hbelongs
    exact hbelongs.imp_right (eq_nameFor_of_groupIn? hline)
  · exact (groupIn?_eq_some_iff hc).2 ⟨hg, s, hs, .inr rfl⟩

/-- The delimiter begins and ends with a digit of suffixes. A name that was not built is recognised
with a line end behind it.

**Proof sketch.** All parts are read off `recognised_iff_built` for this prefix and this
delimiter. -/
theorem recognised_iff_built_overlapping :
    ∃ c, make "a.*" "a-a" = .ok c ∧
      (∃ s, IsSuffixText s ∧ "a.*a-aweba-aa0" = c.nameFor "web" s) ∧
      c.groupIn? "a.*a-aweba-aa0\n" = some "web" ∧ c.belongsTo "web" "a.*a-aweb" = true ∧
      ∀ h t, IsSuffixText t → "a.*a-aweba-aa0\n" ≠ c.nameFor h t := by
  obtain ⟨c, hc, hread⟩ :=
    @recognised_iff_built "a.*" "a-a" (by decide) ⟨'-', by decide, by decide⟩
  obtain rfl : (⟨"a.*", "a-a"⟩ : Naming) = c := Except.ok.inj hc
  have hs : IsSuffixText "a0" := by decide
  have hfound := (hread "web" "a.*a-aweba-aa0").1.2 ⟨by decide, "a0", hs, .inl rfl⟩
  obtain ⟨hline, hunbuilt⟩ := (hread "web" "").2.2.2 "a0" (by decide) hs
  refine ⟨_, rfl, ?_, hline, (hread "web" _).2.1.2 (.inl rfl), hunbuilt⟩
  exact ((hread "web" "a.*a-aweba-aa0").2.2.1 (by decide)).1 hfound

/-- **A name that was not built is recognised.** With a line end behind it, a unique name of the
group `web` is read as one of its names, although no suffix builds it, and it is not the shared
name of the group.

**Proof sketch.** The name is recognised by `groupIn?_eq_some_iff`, which allows for a line end. It
is not built by any suffix, since these are digits. -/
theorem recognised_unbuilt :
    (⟨"nodes", "-"⟩ : Naming).Marked ∧
      (⟨"nodes", "-"⟩ : Naming).groupIn? "nodes-web-1a2\n" = some "web" ∧
      (⟨"nodes", "-"⟩ : Naming).belongsTo "web" "nodes-web-1a2\n" = true ∧
      "nodes-web-1a2\n" ≠ (⟨"nodes", "-"⟩ : Naming).sharedName "web" ∧
      ∀ s, IsSuffixText s → "nodes-web-1a2\n" ≠ (⟨"nodes", "-"⟩ : Naming).nameFor "web" s := by
  have hmarked : (⟨"nodes", "-"⟩ : Naming).Marked := ⟨'-', by decide, by decide⟩
  have hfound : (⟨"nodes", "-"⟩ : Naming).groupIn? "nodes-web-1a2\n" = some "web" :=
    (groupIn?_eq_some_iff hmarked).2 ⟨by decide, "1a2", by decide, .inr rfl⟩
  refine ⟨hmarked, hfound, ?_, by decide, fun s hs hname => ?_⟩
  · rw [belongsTo, hfound, beq_self_eq_true, Bool.or_true]
  · exact nameFor_ne_line (h := "web") (t := "1a2") hs hname.symm

end Names

end NodeKeeper.Naming
