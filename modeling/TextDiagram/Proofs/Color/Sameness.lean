/-
**Colors that are the same.**

Two colors are the same if they are written alike and their parts are equal numbers.  This is an
equivalence on all colors but those with a part that is no number, and colors that are the same have
the same text and the same id.  Their opacities are written alike as well: the two zeros are equal
and written differently, but then the colors are not written alike.

The list of the different colors is built color by color.  It does not matter whether only some of
the ids are looked at before or after, and it is a single color exactly if all of them are the same.

Main definitions:

* `TextDiagram.Color.keep` — the different colors once there is one more.

Main results:

* `TextDiagram.Color.same_symm`, `TextDiagram.Color.same_trans` — sameness is symmetric and
  transitive;
* `TextDiagram.Color.text_alpha_eq_of_same` — **the same colors have one opacity**;
* `TextDiagram.Color.filter_distinct` — different colors among those that are looked at;
* `TextDiagram.Color.distinct_eq_singleton_iff` — **when there is one color only**.
-/

import TextDiagram.Proofs.Color.Text
import TextDiagram.Proofs.Number.Sum

set_option relaxedAutoImplicit false
set_option autoImplicit false

namespace TextDiagram.Color

variable {a b c : Color}

/-! ### An equivalence -/

theorem Component.same_symm {x y : Component} (h : x.same y = true) : y.same x = true := by
  rw [Component.same, Bool.and_eq_true] at *
  exact ⟨BEq.symm h.1, BEq.symm h.2⟩

theorem Component.same_trans {x y z : Component} (h : x.same y = true) (h' : y.same z = true) :
    x.same z = true := by
  rw [Component.same, Bool.and_eq_true] at *
  exact ⟨BEq.trans h.1 h'.1, BEq.trans h.2 h'.2⟩

theorem same_iff : a.same b = true ↔ a.space = b.space ∧ a.spelling = b.spelling ∧
    a.first.same b.first = true ∧ a.second.same b.second = true ∧ a.third.same b.third = true ∧
    a.opacity.same b.opacity = true ∧ a.css = b.css := by
  simp only [same, Bool.and_eq_true, beq_iff_eq, and_assoc]

theorem same_symm (h : a.same b = true) : b.same a = true := by
  obtain ⟨hspace, hspelling, hfirst, hsecond, hthird, hopacity, hcss⟩ := same_iff.1 h
  exact same_iff.2 ⟨hspace.symm, hspelling.symm, Component.same_symm hfirst,
    Component.same_symm hsecond, Component.same_symm hthird, Component.same_symm hopacity,
    hcss.symm⟩

theorem same_trans (h : a.same b = true) (h' : b.same c = true) : a.same c = true := by
  obtain ⟨hspace, hspelling, hfirst, hsecond, hthird, hopacity, hcss⟩ := same_iff.1 h
  obtain ⟨hspace', hspelling', hfirst', hsecond', hthird', hopacity', hcss'⟩ := same_iff.1 h'
  exact same_iff.2 ⟨hspace.trans hspace', hspelling.trans hspelling',
    Component.same_trans hfirst hfirst', Component.same_trans hsecond hsecond',
    Component.same_trans hthird hthird', Component.same_trans hopacity hopacity',
    hcss.trans hcss'⟩

/-! ### How the same colors are written -/

theorem css_eq_of_same (h : a.same b = true) : a.css = b.css := (same_iff.1 h).2.2.2.2.2.2

/-- Colors with one text have one id. -/
theorem idSafe_eq_of_css_eq (h : a.css = b.css) : a.idSafe = b.idSafe := by rw [idSafe, h, ← idSafe]

/-- The text of a translucent color that is not named ends with its opacity. -/
theorem opacity_suffix_css (hname : ∀ name, c.spelling ≠ .name name) (h : c.alpha < 1) :
    (" " ++ c.opacity.text 1 ++ ")").toList <:+ c.css.toList := by
  cases c.form with
  | name name hspelling => exact absurd hspelling (hname name)
  | legacy function scale d hspelling hspace hfunction hopacity hcss =>
      have hd : d.alpha < 1 := by rwa [alpha, hopacity]
      rw [hcss, legacyText, if_pos hd, hopacity]
      simp only [List.cons_append, List.nil_append, String.intercalate_cons_cons,
        String.intercalate_singleton]
      refine ⟨(function ++ "a(" ++ d.first.text scale ++ ", " ++ d.second.text scale ++ ", " ++
        d.third.text scale ++ ",").toList, ?_⟩
      simp [toString]
  | modern opening hspelling hopening hcss =>
      rw [hcss, modernText, if_pos h]
      simp only [String.intercalate_cons_cons, String.intercalate_singleton]
      refine ⟨(opening ++ c.first.text 1 ++ " " ++ c.second.text 1 ++ " " ++ c.third.text 1 ++
        " /").toList, ?_⟩
      simp [toString]

/-- The two zeros are told apart by the text of the color. -/
theorem css_ne_of_zeros (ha : ∀ name, a.spelling ≠ .name name)
    (hb : ∀ name, b.spelling ≠ .name name) (ha0 : a.opacity = ⟨0, false⟩)
    (hb0 : b.opacity = ⟨-0, false⟩) : a.css ≠ b.css := by
  intro hcss
  have hpositive := opacity_suffix_css ha (by rw [alpha, ha0]; decide +kernel)
  have hnegative := opacity_suffix_css hb (by rw [alpha, hb0]; decide +kernel)
  rw [ha0, show (⟨0, false⟩ : Component).text 1 = "0" by decide +kernel] at hpositive
  rw [hb0, show (⟨-0, false⟩ : Component).text 1 = "-0" by decide +kernel] at hnegative
  rw [hcss] at hpositive
  have hsuffix := List.suffix_of_suffix_length_le hpositive hnegative (by decide)
  exact absurd hsuffix (by decide)

/-- Named colors that are the same are one color. -/
theorem eq_of_same_of_name (ha : a.IsGiven) (hb : b.IsGiven) (h : a.same b = true) {name : String}
    (hname : a.spelling = .name name) : a = b := by
  have hname' : b.spelling = .name name := (same_iff.1 h).2.1 ▸ hname
  exact Option.some.inj ((ha.ofName?_eq hname).symm.trans (hb.ofName?_eq hname'))

theorem Component.eq_mk {x : Component} {value : Float32} (hmissing : x.missing = false)
    (hvalue : x.value = value) : x = ⟨value, false⟩ := by
  obtain ⟨_, _⟩ := x
  rw [← hmissing, ← hvalue]

/-- **The same colors have one opacity**, as it is written. -/
theorem text_alpha_eq_of_same (ha : a.IsGiven) (hb : b.IsGiven) (h : a.same b = true) :
    Number.text a.alpha = Number.text b.alpha := by
  by_cases hnamed : ∃ name, a.spelling = .name name
  · obtain ⟨name, hname⟩ := hnamed
    rw [eq_of_same_of_name ha hb h hname]
  · obtain ⟨-, hspelling, -, -, -, hopacity, hcss⟩ := same_iff.1 h
    have ha' : ∀ name, a.spelling ≠ .name name := not_exists.1 hnamed
    have hb' : ∀ name, b.spelling ≠ .name name := hspelling ▸ ha'
    rw [Component.same, Bool.and_eq_true, beq_iff_eq] at hopacity
    obtain ⟨hmissing, hvalue⟩ := hopacity
    rcases Number.exact_eq_or_zero_of_beq hvalue with hexact | ⟨ha0, hb0⟩
    · rw [alpha, alpha, Number.text, hexact, ← Number.text]
    · -- both opacities are zeros, and where they are given, the text tells the two zeros apart
      rw [alpha, alpha]
      cases homitted : a.opacity.missing with
      | true => rw [ha.opacity_eq_zero homitted, hb.opacity_eq_zero (hmissing ▸ homitted)]
      | false =>
          have hgiven : ∀ {value}, a.opacity.value = value → a.opacity = ⟨value, false⟩ :=
            Component.eq_mk homitted
          have hgiven' : ∀ {value}, b.opacity.value = value → b.opacity = ⟨value, false⟩ :=
            Component.eq_mk (hmissing ▸ homitted)
          rcases ha0 with ha0 | ha0 <;> rcases hb0 with hb0 | hb0
          · rw [ha0, hb0]
          · exact absurd hcss (css_ne_of_zeros ha' hb' (hgiven ha0) (hgiven' hb0))
          · exact absurd hcss.symm (css_ne_of_zeros hb' ha' (hgiven' hb0) (hgiven ha0))
          · rw [ha0, hb0]

/-! ### Different colors -/

/-- The different colors once there is one more. -/
def keep (seen : List Color) (c : Color) : List Color :=
  if seen.any (same c) then seen else seen ++ [c]

theorem distinct_cons (a : Color) (rest : List Color) :
    distinct (a :: rest) = rest.foldl keep [a] := rfl

theorem prefix_keep (seen : List Color) (c : Color) : seen <+: keep seen c := by
  unfold keep
  split
  · exact List.prefix_rfl
  · exact List.prefix_append _ _

theorem prefix_foldl_keep (colors seen : List Color) : seen <+: colors.foldl keep seen := by
  induction colors generalizing seen with
  | nil => exact List.prefix_rfl
  | cons c rest ih => exact (prefix_keep seen c).trans (ih _)

theorem distinct_ne_nil {colors : List Color} (hc : c ∈ colors) : distinct colors ≠ [] := by
  cases colors with
  | nil => exact absurd hc List.not_mem_nil
  | cons a rest =>
      have hfirst := prefix_foldl_keep rest [a]
      intro hnil
      rw [← distinct_cons, hnil] at hfirst
      exact List.cons_ne_nil a [] (List.prefix_nil.1 hfirst)

section

variable {p : Color → Bool} (hp : ∀ c d, c.same d = true → p c = p d)

include hp

theorem filter_keep (seen : List Color) (c : Color) :
    (keep seen c).filter p = if p c then keep (seen.filter p) c else seen.filter p := by
  have hany : p c = true → (seen.filter p).any (same c) = seen.any (same c) := by
    intro hc
    rw [List.any_filter]
    refine List.any_congr rfl fun d => ?_
    cases hsame : c.same d with
    | true => rw [← hp c d hsame, hc, Bool.and_self]
    | false => rw [Bool.and_false]
  cases hseen : seen.any (same c) with
  | true =>
      rw [keep, if_pos hseen]
      split
      · next hc => rw [keep, if_pos ((hany hc).trans hseen)]
      · rfl
  | false =>
      rw [keep, if_neg (by simp [hseen]), List.filter_append, List.filter_singleton]
      split
      · next hc => rw [keep, if_neg (by simp [hany hc, hseen]), hc, cond_true]
      · next hc => rw [Bool.eq_false_iff.2 hc, cond_false, List.append_nil]

theorem filter_foldl_keep (colors seen : List Color) :
    (colors.foldl keep seen).filter p = (colors.filter p).foldl keep (seen.filter p) := by
  induction colors generalizing seen with
  | nil => rfl
  | cons c rest ih =>
      rw [List.foldl_cons, ih, filter_keep hp, List.filter_cons]
      split
      · rfl
      · rfl

/-- The different colors among those that are looked at, if the same colors are looked at alike. -/
theorem filter_distinct (colors : List Color) :
    (distinct colors).filter p = distinct (colors.filter p) := filter_foldl_keep hp colors []

end

theorem foldl_keep_singleton_iff {rest : List Color} :
    rest.foldl keep [a] = [a] ↔ ∀ c ∈ rest, c.same a = true := by
  induction rest with
  | nil => simp
  | cons c rest ih =>
      rw [List.foldl_cons, List.forall_mem_cons, keep, List.any_cons, List.any_nil, Bool.or_false]
      cases hsame : c.same a with
      | true => rw [if_pos rfl, ih, and_iff_right rfl]
      | false =>
          refine iff_of_false (fun heq => ?_) (fun h => nomatch h.1)
          have hlength := (prefix_foldl_keep rest [a, c]).length_le
          rw [if_neg Bool.false_ne_true, List.singleton_append] at heq
          rw [heq] at hlength
          exact absurd hlength (Nat.not_succ_le_self 1)

/-- **When there is one color only**: all colors are the same. -/
theorem distinct_eq_singleton_iff {rest : List Color} :
    distinct (a :: rest) = [b] ↔
      b = a ∧ (a :: rest).Pairwise fun c d => c.same d = true := by
  have hpairwise : (∀ c ∈ rest, c.same a = true) ↔
      (a :: rest).Pairwise fun c d => c.same d = true := by
    rw [List.pairwise_cons]
    refine ⟨fun h => ⟨fun c hc => same_symm (h c hc), ?_⟩, fun h c hc => same_symm (h.1 c hc)⟩
    exact List.pairwise_of_forall_mem_list fun c hc d hd => same_trans (h c hc) (same_symm (h d hd))
  rw [distinct_cons, ← hpairwise, ← foldl_keep_singleton_iff]
  constructor
  · intro h
    have hfirst : [a] <+: [b] := h ▸ prefix_foldl_keep rest [a]
    obtain rfl : a = b := by simpa using hfirst
    exact ⟨rfl, h⟩
  · rintro ⟨rfl, h⟩
    exact h

/-- All colors of a list are the same exactly if there is one different color, written like any of
them. -/
theorem exists_distinct_eq_singleton_iff {colors : List Color} (hgiven : ∀ c ∈ colors, c.IsGiven)
    (hc : c ∈ colors) : (∃ b, distinct colors = [b] ∧ b.css = c.css ∧
        Number.text b.alpha = Number.text c.alpha) ↔
      colors.Pairwise fun c c' => c.same c' = true := by
  cases colors with
  | nil => exact absurd hc List.not_mem_nil
  | cons a rest =>
      constructor
      · rintro ⟨b, hb, -⟩
        exact (distinct_eq_singleton_iff.1 hb).2
      · intro h
        refine ⟨a, distinct_eq_singleton_iff.2 ⟨rfl, h⟩, ?_⟩
        rcases List.mem_cons.1 hc with rfl | hrest
        · exact ⟨rfl, rfl⟩
        · have hsame := (List.pairwise_cons.1 h).1 c hrest
          exact ⟨css_eq_of_same hsame,
            text_alpha_eq_of_same (hgiven a List.mem_cons_self) (hgiven c hc) hsame⟩

/-- Colors with one id are the same if those with any given id are. -/
theorem pairwise_same_iff {colors : List Color} :
    (colors.Pairwise fun c c' => c.idSafe = c'.idSafe → c.same c' = true) ↔
      ∀ c ∈ colors, (colors.filter fun c' => c.idSafe = c'.idSafe).Pairwise
        fun c c' => c.same c' = true := by
  constructor
  · intro h c _
    refine List.pairwise_filter.2 (h.imp fun hsame hleft hright => hsame ?_)
    exact (of_decide_eq_true hleft).symm.trans (of_decide_eq_true hright)
  · intro h
    refine List.pairwise_iff_forall_sublist.2 fun {c c'} hsub hid => ?_
    have hkept : [c, c'].Sublist (colors.filter fun c' => c.idSafe = c'.idSafe) := by
      have hfilter := hsub.filter fun c' => decide (c.idSafe = c'.idSafe)
      simpa [hid] using hfilter
    exact List.pairwise_iff_forall_sublist.1 (h c (hsub.subset List.mem_cons_self)) hkept

end TextDiagram.Color
