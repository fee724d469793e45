import Mathlib.Logic.Function.Basic
import Mathlib.Tactic.Common

/-!
# Rules that rewrite the fields of a packet

A rule may restrict a field of the packet that comes in, and may say what the field is
rewritten to; a field that it does not rewrite stays as it is. Rules on different fields are
independent: two rules agree when they agree field by field.
-/

namespace FieldRewrite

section Field

variable {α : Type*}

/-- A field before and after, under an optional restriction and an optional rewriting. -/
def Rewrites (before after : Option (α → Prop)) (t : α × α) : Prop :=
  (∀ P, before = some P → P t.1) ∧
    match after with
    | some Q => Q t.2
    | none => t.2 = t.1

variable [Nontrivial α] {before after : Option (α → Prop)} {a b : α}

/-- A rule leaves a field alone when its restriction is void and nothing is rewritten. -/
theorem rewrites_unchanged_iff : (∀ t, Rewrites before after t ↔ t.2 = t.1) ↔
    (∀ P, before = some P → ∀ a, P a) ∧ after = none := by
  constructor
  · intro h
    have hsame : ∀ a, Rewrites before after (a, a) := fun a => (h (a, a)).mpr rfl
    refine ⟨fun P hP a => (hsame a).1 P hP, ?_⟩
    cases after with
    | none => rfl
    -- a rewriting allows every value, so it allows another one than the old
    | some Q =>
      obtain ⟨a, b, hab⟩ := exists_pair_ne α
      have hb : b = a := (h (a, b)).mp ⟨(hsame a).1, (hsame b).2⟩
      exact (hab hb.symm).elim
  · rintro ⟨hbefore, rfl⟩ t
    exact ⟨fun ht => ht.2, fun ht => ⟨fun P hP => hbefore P hP t.1, ht⟩⟩

/-- A rule rewrites one value to one value when it is restricted to the first, and rewrites
it to the second or leaves it alone. -/
theorem rewrites_single_iff : (∀ t, Rewrites before after t ↔ t = (a, b)) ↔
    (∃ P, before = some P ∧ ∀ c, P c ↔ c = a) ∧
      ((∃ Q, after = some Q ∧ ∀ c, Q c ↔ c = b) ∨ after = none ∧ b = a) := by
  constructor
  · intro h
    have hself : Rewrites before after (a, b) := (h _).mpr rfl
    have hfst : ∀ c, (∀ P, before = some P → P c) → c = a := by
      intro c hc
      cases after with
      | none => exact congrArg Prod.fst ((h (c, c)).mp ⟨hc, rfl⟩)
      | some Q => exact congrArg Prod.fst ((h (c, b)).mp ⟨hc, hself.2⟩)
    constructor
    · cases before with
      | none =>
        obtain ⟨c, hc⟩ := exists_ne a
        exact (hc (hfst c (by simp))).elim
      | some P =>
        refine ⟨P, rfl, fun c => ⟨fun hc => hfst c (by simpa using hc), ?_⟩⟩
        rintro rfl
        exact hself.1 P rfl
    · cases after with
      | none => exact .inr ⟨rfl, hself.2⟩
      | some Q =>
        refine .inl ⟨Q, rfl, fun c => ⟨fun hc => ?_, ?_⟩⟩
        · exact congrArg Prod.snd ((h (a, c)).mp ⟨hself.1, hc⟩)
        · rintro rfl
          exact hself.2
  · rintro ⟨⟨P, rfl, hP⟩, ⟨Q, rfl, hQ⟩ | ⟨rfl, rfl⟩⟩ ⟨c, d⟩
    · simp [Rewrites, hP, hQ]
    · simp only [Rewrites, Option.some.injEq, forall_eq', hP, Prod.mk.injEq]
      constructor
      · rintro ⟨rfl, rfl⟩
        exact ⟨rfl, rfl⟩
      · rintro ⟨rfl, rfl⟩
        exact ⟨rfl, rfl⟩

end Field

/-! ## Independent fields -/

section Fields

variable {κ α β : Type*} {γ : κ → Type*}

theorem forall_and_iff {F G : α → Prop} {F' G' : β → Prop} (hG : ∃ a, G a) (hG' : ∃ b, G' b) :
    (∀ a b, (F a ∧ F' b) ↔ (G a ∧ G' b)) ↔ (∀ a, F a ↔ G a) ∧ ∀ b, F' b ↔ G' b := by
  constructor
  · intro h
    obtain ⟨a, ha⟩ := hG
    obtain ⟨b, hb⟩ := hG'
    obtain ⟨hFa, hFb⟩ := (h a b).mpr ⟨ha, hb⟩
    refine ⟨fun c => ⟨fun hc => ((h c b).mp ⟨hc, hFb⟩).1, fun hc => ((h c b).mpr ⟨hc, hb⟩).1⟩,
      fun c => ⟨fun hc => ((h a c).mp ⟨hFa, hc⟩).2, fun hc => ((h a c).mpr ⟨ha, hc⟩).2⟩⟩
  · rintro ⟨h, h'⟩ a b
    rw [h a, h' b]

theorem forall_pi_iff [DecidableEq κ] {F G : ∀ k, γ k → Prop}
    (hG : ∃ t : ∀ k, γ k, ∀ k, G k (t k)) :
    (∀ t : ∀ k, γ k, (∀ k, F k (t k)) ↔ ∀ k, G k (t k)) ↔ ∀ k c, F k c ↔ G k c := by
  constructor
  · intro h k c
    obtain ⟨t, ht⟩ := hG
    have hF := (h t).mpr ht
    -- the field `k` is changed, the others stay
    have hk := h (Function.update t k c)
    rw [Function.forall_update_iff t F, Function.forall_update_iff t G] at hk
    exact ⟨fun hc => (hk.mp ⟨hc, fun j _ => hF j⟩).1, fun hc => (hk.mpr ⟨hc, fun j _ => ht j⟩).1⟩
  · intro h t
    exact forall_congr' fun k => h k (t k)

end Fields

end FieldRewrite
