import Mathlib.Computability.Language
import Mathlib.Data.Bool.AllAny

/-!
# Regular expressions, and scanners certified against them

Regular expressions over character classes, with Mathlib's `Language` as their
meaning and Brzozowski's derivative as the way to run them:

* `accepts` decides whether a whole word is in the language,
* `begins` whether some prefix of it is.

A `Scanner` is a transition table: on each character it either answers or goes to
another state. `Scanner.run_eq_begins` says that it computes `begins` when a finite
list of pairs (state, regular expression) is closed under the characters — a check
that evaluates, and that looks only at the characters a state has a use for.
-/

/-- Character classes `κ` over an alphabet `α`. -/
class CharClass (κ : Type) (α : outParam Type) where
  /-- The class has the character. -/
  has : κ → α → Bool
  /-- The characters of the class. -/
  letters : κ → List α
  mem_letters {k : κ} {c : α} : has k c = true → c ∈ letters k

/-- Regular expressions over character classes. -/
inductive Regex (κ : Type) where
  | empty
  | eps
  | cls (k : κ)
  | alt (r s : Regex κ)
  | seq (r s : Regex κ)
  | star (r : Regex κ)
deriving DecidableEq

namespace Regex

variable {κ α : Type}

/-- `r?` -/
def opt (r : Regex κ) : Regex κ := alt eps r

/-- `r+` -/
def plus (r : Regex κ) : Regex κ := seq r (star r)

/-- One of the alternatives. -/
def oneOf (rs : List (Regex κ)) : Regex κ := rs.foldr alt empty

/-- One after the other. -/
def inOrder (rs : List (Regex κ)) : Regex κ := rs.foldr seq eps

/-! ## Languages -/

section Languages

variable [CharClass κ α]

def lang : Regex κ → Language α
  | empty => 0
  | eps => 1
  | cls k => {w | ∃ c, CharClass.has k c = true ∧ w = [c]}
  | alt r s => r.lang + s.lang
  | seq r s => r.lang * s.lang
  | star r => KStar.kstar r.lang

variable {r s : Regex κ} {w : List α} {c : α}

@[simp] theorem mem_lang_empty : w ∉ (empty : Regex κ).lang := Language.notMem_zero w

@[simp] theorem mem_lang_eps : w ∈ (eps : Regex κ).lang ↔ w = [] := Language.mem_one w

@[simp] theorem mem_lang_cls {k : κ} :
    w ∈ (cls k).lang ↔ ∃ c, CharClass.has k c = true ∧ w = [c] := Iff.rfl

@[simp] theorem mem_lang_alt : w ∈ (alt r s).lang ↔ w ∈ r.lang ∨ w ∈ s.lang := Iff.rfl

theorem mem_lang_seq : w ∈ (seq r s).lang ↔ ∃ a ∈ r.lang, ∃ b ∈ s.lang, a ++ b = w := Iff.rfl

theorem lang_star : (star r).lang = KStar.kstar r.lang := rfl

/-! ## The empty word -/

/-- The language has the empty word. -/
def nullable : Regex κ → Bool
  | empty => false
  | eps => true
  | cls _ => false
  | alt r s => r.nullable || s.nullable
  | seq r s => r.nullable && s.nullable
  | star _ => true

theorem nullable_iff (r : Regex κ) : r.nullable = true ↔ [] ∈ r.lang := by
  induction r with
  | empty => simp [nullable]
  | eps => simp [nullable]
  | cls k => simp [nullable]
  | alt r s ihr ihs => simp [nullable, ihr, ihs]
  | seq r s ihr ihs =>
    rw [nullable, Bool.and_eq_true, ihr, ihs, mem_lang_seq]
    constructor
    · rintro ⟨hr, hs⟩
      exact ⟨[], hr, [], hs, rfl⟩
    · rintro ⟨a, ha, b, hb, hab⟩
      obtain ⟨rfl, rfl⟩ := List.append_eq_nil_iff.mp hab
      exact ⟨ha, hb⟩
  | star r => exact iff_of_true rfl (Language.nil_mem_kstar _)

end Languages

/-! ## Derivatives -/

section Derivatives

variable [DecidableEq κ]

/-- `s` is one of the alternatives of `r`. -/
def hasAlt (s : Regex κ) : Regex κ → Bool
  | alt a b => hasAlt s a || hasAlt s b
  | r => decide (r = s)

/-- `alt`, with the alternatives of `s` added one by one unless they are there
already. -/
def mkAlt (r : Regex κ) : Regex κ → Regex κ
  | alt a b => mkAlt (mkAlt r a) b
  | empty => r
  | s => if r = empty then s else if hasAlt s r then r else alt r s

/-- `seq`, without an empty side or an empty word in front. -/
def mkSeq (r s : Regex κ) : Regex κ :=
  match r, s with
  | empty, _ => empty
  | eps, s => s
  | _, empty => empty
  | r, s => seq r s

variable [CharClass κ α]

theorem mem_of_hasAlt {r s : Regex κ} (h : hasAlt s r = true) {w : List α} (hw : w ∈ s.lang) :
    w ∈ r.lang := by
  induction r with
  | alt a b iha ihb =>
    rcases Bool.or_eq_true_iff.mp h with ha | hb
    · exact .inl (iha ha)
    · exact .inr (ihb hb)
  | _ => exact of_decide_eq_true h ▸ hw

/-- An alternative that is not an `alt` itself. -/
theorem lang_addOne (r s : Regex κ) :
    (if r = empty then s else if hasAlt s r then r else alt r s).lang = (alt r s).lang := by
  split
  · rename_i h
    rw [h]
    exact (zero_add _).symm
  split
  · rename_i h
    apply Language.ext
    intro w
    rw [mem_lang_alt]
    exact ⟨.inl, fun hw => hw.elim id (mem_of_hasAlt h)⟩
  · rfl

theorem lang_mkAlt (r s : Regex κ) : (mkAlt r s).lang = (alt r s).lang := by
  induction s generalizing r with
  | alt a b iha ihb =>
    rw [mkAlt, ihb]
    change (mkAlt r a).lang + b.lang = r.lang + (a.lang + b.lang)
    rw [iha, ← add_assoc]
    rfl
  | empty => exact (add_zero _).symm
  | eps => exact lang_addOne r _
  | cls k => exact lang_addOne r _
  | seq a b => exact lang_addOne r _
  | star a => exact lang_addOne r _

omit [DecidableEq κ] in
theorem lang_mkSeq (r s : Regex κ) : (mkSeq r s).lang = (seq r s).lang := by
  unfold mkSeq
  split
  · exact (zero_mul _).symm
  · exact (one_mul _).symm
  · exact (mul_zero _).symm
  · rfl

/-- What is left of the words that begin with `c`. -/
def deriv (c : α) : Regex κ → Regex κ
  | empty => empty
  | eps => empty
  | cls k => if CharClass.has k c then eps else empty
  | alt r s => mkAlt (r.deriv c) (s.deriv c)
  | seq r s =>
    if r.nullable then mkAlt (mkSeq (r.deriv c) s) (s.deriv c) else mkSeq (r.deriv c) s
  | star r => mkSeq (r.deriv c) (star r)

omit [DecidableEq κ] in
/-- The first character of a product is the first factor's, unless that is empty. -/
theorem cons_mem_seq {r s : Regex κ} {c : α} {w : List α} :
    c :: w ∈ (seq r s).lang ↔
      (∃ a, c :: a ∈ r.lang ∧ ∃ b ∈ s.lang, a ++ b = w) ∨ ([] ∈ r.lang ∧ c :: w ∈ s.lang) := by
  rw [mem_lang_seq]
  constructor
  · rintro ⟨a, ha, b, hb, hab⟩
    cases a with
    | nil =>
      obtain rfl : b = c :: w := hab
      exact .inr ⟨ha, hb⟩
    | cons a₀ a =>
      obtain ⟨rfl, rfl⟩ := List.cons.inj hab
      exact .inl ⟨a, ha, b, hb, rfl⟩
  · rintro (⟨a, ha, b, hb, rfl⟩ | ⟨hr, hs⟩)
    · exact ⟨c :: a, ha, b, hb, rfl⟩
    · exact ⟨[], hr, c :: w, hs, rfl⟩

omit [DecidableEq κ] in
/-- A word of an iteration that is not empty begins with a factor that is not. -/
theorem cons_mem_star {r : Regex κ} {c : α} {w : List α} :
    c :: w ∈ (star r).lang ↔ ∃ a, c :: a ∈ r.lang ∧ ∃ b ∈ (star r).lang, a ++ b = w := by
  constructor
  · intro h
    rw [lang_star, Language.mem_kstar_iff_exists_nonempty] at h
    obtain ⟨ws, hws, hmem⟩ := h
    cases ws with
    | nil => cases hws
    | cons v ws =>
      obtain ⟨hv, hne⟩ := hmem v (List.mem_cons_self ..)
      cases v with
      | nil => exact absurd rfl hne
      | cons v₀ v =>
        rw [List.flatten_cons, List.cons_append] at hws
        obtain ⟨rfl, rfl⟩ := List.cons.inj hws
        exact ⟨v, hv, ws.flatten, Language.join_mem_kstar fun y hy =>
          (hmem y (List.mem_cons_of_mem _ hy)).1, rfl⟩
  · rintro ⟨a, ha, b, hb, rfl⟩
    rw [lang_star, ← Language.one_add_self_mul_kstar_eq_kstar]
    exact .inr (Language.append_mem_mul ha hb)

theorem mem_deriv {c : α} {w : List α} (r : Regex κ) :
    w ∈ (r.deriv c).lang ↔ c :: w ∈ r.lang := by
  induction r generalizing w with
  | empty => exact iff_of_false mem_lang_empty mem_lang_empty
  | eps => simp [deriv]
  | cls k =>
    rw [deriv, mem_lang_cls]
    split
    · rename_i hk
      rw [mem_lang_eps]
      constructor
      · rintro rfl
        exact ⟨c, hk, rfl⟩
      · rintro ⟨c', -, h⟩
        exact (List.cons.inj h).2
    · rename_i hk
      refine iff_of_false mem_lang_empty ?_
      rintro ⟨c', hc', h⟩
      exact hk ((List.cons.inj h).1 ▸ hc')
  | alt r s ihr ihs => rw [deriv, lang_mkAlt, mem_lang_alt, ihr, ihs, mem_lang_alt]
  | seq r s ihr ihs =>
    have hseq : w ∈ (mkSeq (r.deriv c) s).lang ↔
        ∃ a, c :: a ∈ r.lang ∧ ∃ b ∈ s.lang, a ++ b = w := by
      rw [lang_mkSeq, mem_lang_seq]
      exact exists_congr fun a => and_congr_left fun _ => ihr
    rw [deriv, cons_mem_seq, ← nullable_iff]
    split
    · rename_i hnull
      rw [lang_mkAlt, mem_lang_alt, hseq, ihs, and_iff_right hnull]
    · rename_i hnull
      rw [hseq, or_iff_left fun h => hnull h.1]
  | star r ih =>
    rw [deriv, lang_mkSeq, mem_lang_seq, cons_mem_star]
    exact exists_congr fun a => and_congr_left fun _ => ih

/-- What is left of the words that begin with `w`. -/
def derivs (r : Regex κ) : List α → Regex κ
  | [] => r
  | c :: w => (r.deriv c).derivs w

theorem mem_derivs (r : Regex κ) (v w : List α) : w ∈ (r.derivs v).lang ↔ v ++ w ∈ r.lang := by
  induction v generalizing r with
  | nil => exact Iff.rfl
  | cons c v ih => rw [derivs, ih, mem_deriv, List.cons_append]

/-- The word is in the language. -/
def accepts (r : Regex κ) (w : List α) : Bool := (r.derivs w).nullable

theorem accepts_iff (r : Regex κ) (w : List α) : r.accepts w = true ↔ w ∈ r.lang := by
  rw [accepts, nullable_iff, mem_derivs, List.append_nil]

instance (r : Regex κ) (w : List α) : Decidable (w ∈ r.lang) :=
  decidable_of_iff _ (accepts_iff r w)

/-! ## Prefixes -/

/-- Some prefix of the word is in the language. -/
def begins (r : Regex κ) : List α → Bool
  | [] => r.nullable
  | c :: s => r.nullable || (r.deriv c).begins s

theorem begins_iff (r : Regex κ) (s : List α) :
    r.begins s = true ↔ ∃ p, p <+: s ∧ p ∈ r.lang := by
  induction s generalizing r with
  | nil =>
    rw [begins, nullable_iff]
    constructor
    · exact fun h => ⟨[], List.nil_prefix, h⟩
    · rintro ⟨p, hp, hmem⟩
      rwa [List.prefix_nil.mp hp] at hmem
  | cons c s ih =>
    rw [begins, Bool.or_eq_true, nullable_iff, ih]
    constructor
    · rintro (h | ⟨p, hp, hmem⟩)
      · exact ⟨[], List.nil_prefix, h⟩
      · exact ⟨c :: p, List.cons_prefix_cons.mpr ⟨rfl, hp⟩, (mem_deriv r).mp hmem⟩
    · rintro ⟨p, hp, hmem⟩
      cases p with
      | nil => exact .inl hmem
      | cons c' p =>
        obtain ⟨rfl, hp'⟩ := List.cons_prefix_cons.mp hp
        exact .inr ⟨p, hp', (mem_deriv r).mpr hmem⟩

/-- The words of the empty language begin nothing. -/
@[simp] theorem begins_empty (s : List α) : (empty : Regex κ).begins s = false := by
  rw [← Bool.not_eq_true, begins_iff]
  rintro ⟨p, -, hp⟩
  exact mem_lang_empty hp

theorem begins_of_nullable {r : Regex κ} (h : r.nullable = true) (s : List α) :
    r.begins s = true :=
  (begins_iff r s).mpr ⟨[], List.nil_prefix, (nullable_iff r).mp h⟩

/-! ## First characters -/

/-- The classes a word of the language can begin with. -/
def firsts : Regex κ → List κ
  | empty => []
  | eps => []
  | cls k => [k]
  | alt r s => r.firsts ++ s.firsts
  | seq r s => if r.nullable then r.firsts ++ s.firsts else r.firsts
  | star r => r.firsts

/-- No word begins with a character outside those classes. -/
theorem deriv_eq_empty {r : Regex κ} {c : α} (h : ∀ k ∈ r.firsts, CharClass.has k c = false) :
    r.deriv c = empty := by
  induction r with
  | empty => rfl
  | eps => rfl
  | cls k => rw [deriv, h k (List.mem_singleton_self k), if_neg Bool.false_ne_true]
  | alt r s ihr ihs =>
    rw [deriv, ihr fun k hk => h k (List.mem_append_left _ hk),
      ihs fun k hk => h k (List.mem_append_right _ hk)]
    rfl
  | seq r s ihr ihs =>
    rw [firsts] at h
    rw [deriv]
    split
    · rename_i hnull
      rw [if_pos hnull] at h
      rw [ihr fun k hk => h k (List.mem_append_left _ hk),
        ihs fun k hk => h k (List.mem_append_right _ hk)]
      rfl
    · rename_i hnull
      rw [if_neg hnull] at h
      rw [ihr h]
      rfl
  | star r ih =>
    rw [deriv, ih h]
    rfl

/-! ## Prefixes, by constructor -/

theorem begins_alt (r s : Regex κ) (w : List α) :
    (alt r s).begins w = (r.begins w || s.begins w) := by
  rw [Bool.eq_iff_iff, Bool.or_eq_true, begins_iff, begins_iff, begins_iff]
  constructor
  · rintro ⟨p, hp, hr | hs⟩
    · exact .inl ⟨p, hp, hr⟩
    · exact .inr ⟨p, hp, hs⟩
  · rintro (⟨p, hp, hr⟩ | ⟨p, hp, hs⟩)
    · exact ⟨p, hp, .inl hr⟩
    · exact ⟨p, hp, .inr hs⟩

theorem begins_seq_assoc (r s t : Regex κ) (w : List α) :
    (seq (seq r s) t).begins w = (seq r (seq s t)).begins w := by
  have hlang : (seq (seq r s) t).lang = (seq r (seq s t)).lang := mul_assoc _ _ _
  rw [Bool.eq_iff_iff, begins_iff, begins_iff, hlang]

/-- A class in front is the first character. -/
@[simp] theorem begins_cls_seq (k : κ) (r : Regex κ) (c : α) (w : List α) :
    (seq (cls k) r).begins (c :: w) = (CharClass.has k c && r.begins w) := by
  have hnull : (seq (cls k) r).nullable = false := rfl
  have hderiv : (seq (cls k) r).deriv c = mkSeq (if CharClass.has k c then eps else empty) r := rfl
  rw [begins, hnull, hderiv, Bool.false_or]
  cases CharClass.has k c with
  | true => rfl
  | false => exact begins_empty w

@[simp] theorem begins_cls_seq_nil (k : κ) (r : Regex κ) :
    (seq (cls k) r).begins ([] : List α) = false := rfl

/-! ## The characters of the words -/

/-- The classes of an expression. -/
def classes : Regex κ → List κ
  | empty => []
  | eps => []
  | cls k => [k]
  | alt r s => r.classes ++ s.classes
  | seq r s => r.classes ++ s.classes
  | star r => r.classes

omit [DecidableEq κ] in
theorem exists_class_of_mem {r : Regex κ} {w : List α} (hw : w ∈ r.lang) {c : α} (hc : c ∈ w) :
    ∃ k ∈ r.classes, CharClass.has k c = true := by
  induction r generalizing w with
  | empty => exact absurd hw mem_lang_empty
  | eps =>
    rw [mem_lang_eps.mp hw] at hc
    cases hc
  | cls k =>
    obtain ⟨c', hk, rfl⟩ := hw
    obtain rfl := List.mem_singleton.mp hc
    exact ⟨k, List.mem_singleton_self k, hk⟩
  | alt r s ihr ihs =>
    rcases hw with hr | hs
    · obtain ⟨k, hk, hhas⟩ := ihr hr hc
      exact ⟨k, List.mem_append_left _ hk, hhas⟩
    · obtain ⟨k, hk, hhas⟩ := ihs hs hc
      exact ⟨k, List.mem_append_right _ hk, hhas⟩
  | seq r s ihr ihs =>
    obtain ⟨a, ha, b, hb, rfl⟩ := hw
    rcases List.mem_append.mp hc with hca | hcb
    · obtain ⟨k, hk, hhas⟩ := ihr ha hca
      exact ⟨k, List.mem_append_left _ hk, hhas⟩
    · obtain ⟨k, hk, hhas⟩ := ihs hb hcb
      exact ⟨k, List.mem_append_right _ hk, hhas⟩
  | star r ih =>
    obtain ⟨ws, rfl, hws⟩ := hw
    obtain ⟨v, hv, hcv⟩ := List.mem_flatten.mp hc
    exact ih (hws v hv) hcv

/-- A character in none of the classes ends what is looked at. -/
theorem begins_takeWhile {r : Regex κ} {p : α → Bool}
    (h : ∀ k ∈ r.classes, ∀ c, CharClass.has k c = true → p c = true) (s : List α) :
    r.begins (s.takeWhile p) = r.begins s := by
  rw [Bool.eq_iff_iff, begins_iff, begins_iff]
  constructor
  · rintro ⟨w, hw, hmem⟩
    exact ⟨w, hw.trans (List.takeWhile_prefix p), hmem⟩
  · rintro ⟨w, ⟨t, rfl⟩, hmem⟩
    refine ⟨w, ?_, hmem⟩
    have hall : ∀ c ∈ w, p c = true := by
      intro c hc
      obtain ⟨k, hk, hhas⟩ := exists_class_of_mem hmem hc
      exact h k hk c hhas
    rw [List.takeWhile_append_of_pos hall]
    exact List.prefix_append _ _

/-- Every derivative of an expression of the list is in the list or empty. -/
def closedUnderDeriv (D : List (Regex κ)) : Bool :=
  D.all fun r => r.firsts.all fun k => (CharClass.letters k).all fun c =>
    decide (r.deriv c = empty) || D.contains (r.deriv c)

theorem derivs_mem_of_closed {D : List (Regex κ)} (hD : closedUnderDeriv D = true) {r : Regex κ}
    (hr : r ∈ D) (w : List α) : r.derivs w = empty ∨ r.derivs w ∈ D := by
  have hempty (w : List α) : (empty : Regex κ).derivs w = empty := by
    induction w with
    | nil => rfl
    | cons c w ih => exact ih
  induction w generalizing r with
  | nil => exact .inr hr
  | cons c w ih =>
    rw [derivs]
    by_cases hc : ∃ k ∈ r.firsts, CharClass.has k c = true
    · obtain ⟨k, hk, hhas⟩ := hc
      have hall := List.all_eq_true.mp (List.all_eq_true.mp (List.all_eq_true.mp hD r hr) k hk) c
        (CharClass.mem_letters hhas)
      rcases Bool.or_eq_true_iff.mp hall with h | h
      · rw [of_decide_eq_true h]
        exact .inl (hempty w)
      · exact ih (List.contains_iff_mem.mp h)
    · rw [deriv_eq_empty fun k hk => Bool.not_eq_true _ ▸ fun h => hc ⟨k, hk, h⟩]
      exact .inl (hempty w)

end Derivatives

end Regex

/-! ## Scanners -/

/-- A scanner with states `Q`. On a character a state answers or goes on; at the
end of the text it answers. On a character that is not active it gives its idle
answer, if it has one. -/
structure Scanner (Q α : Type) where
  jump : Q → α → Bool ⊕ Q
  atEnd : Q → Bool
  active : Q → List α
  idle : Q → Option Bool
  jump_of_idle {q : Q} {c : α} {b : Bool} : c ∉ active q → idle q = some b → jump q c = .inl b

namespace Scanner

variable {Q α κ : Type} (S : Scanner Q α)

/-- What the scanner answers from state `q`. -/
def run : Q → List α → Bool
  | q, [] => S.atEnd q
  | q, c :: s =>
    match S.jump q c with
    | .inl b => b
    | .inr q' => run q' s

variable [CharClass κ α] [DecidableEq κ] [DecidableEq Q] [DecidableEq α]

/-- On the character `c`, state `q` does what is due for the words of `r`; the
pair it goes on to is the same one or in the table. -/
def agrees (table : List (Q × Regex κ)) (q : Q) (r : Regex κ) (c : α) : Bool :=
  match S.jump q c with
  | .inl true => r.nullable || (r.deriv c).nullable
  | .inl false => !r.nullable && decide (r.deriv c = .empty)
  | .inr q' =>
    (!r.nullable || (r.deriv c).nullable) &&
      (decide (q' = q) && decide (r.deriv c = r) ||
        table.any fun x => decide (x.1 = q') && decide (x.2 = r.deriv c))

/-- So does it on a character that is not active. -/
def idles (q : Q) (r : Regex κ) : Bool :=
  match S.idle q with
  | some true => r.nullable
  | some false =>
    !r.nullable && r.firsts.all fun k => (CharClass.letters k).all fun c => (S.active q).contains c
  | none => false

/-- The pairs of the table agree on every character and at the end of the text. -/
def certifies (table : List (Q × Regex κ)) : Bool :=
  table.all fun x =>
    (S.atEnd x.1 == x.2.nullable) && S.idles x.1 x.2 && (S.active x.1).all (S.agrees table x.1 x.2)

/-- What a certificate asks of a pair. -/
def settles (table : List (Q × Regex κ)) (x : Q × Regex κ) : Bool :=
  (S.atEnd x.1 == x.2.nullable) && S.idles x.1 x.2 && (S.active x.1).all (S.agrees table x.1 x.2)

variable {S}

omit [DecidableEq α] in
theorem agrees_mono {table larger : List (Q × Regex κ)} (h : table ⊆ larger) {q : Q} {r : Regex κ}
    {c : α} (hc : S.agrees table q r c = true) : S.agrees larger q r c = true := by
  rw [agrees] at hc ⊢
  cases hj : S.jump q c with
  | inl b =>
    rw [hj] at hc
    cases b <;> exact hc
  | inr q' =>
    rw [hj] at hc
    obtain ⟨hkeep, hmem⟩ := Bool.and_eq_true_iff.mp hc
    refine Bool.and_eq_true_iff.mpr ⟨hkeep, ?_⟩
    rcases Bool.or_eq_true_iff.mp hmem with hself | hother
    · exact Bool.or_eq_true_iff.mpr (.inl hself)
    · obtain ⟨x, hx, hsame⟩ := List.any_eq_true.mp hother
      exact Bool.or_eq_true_iff.mpr (.inr (List.any_eq_true.mpr ⟨x, h hx, hsame⟩))

/-- A table can be certified part by part. -/
theorem certifies_of_parts {table : List (Q × Regex κ)}
    (h : ∀ x ∈ table, ∃ part, part ⊆ table ∧ S.settles part x = true) :
    S.certifies table = true := by
  refine List.all_eq_true.mpr fun x hx => ?_
  obtain ⟨part, hpart, hsettles⟩ := h x hx
  obtain ⟨hrest, hactive⟩ := Bool.and_eq_true_iff.mp hsettles
  refine Bool.and_eq_true_iff.mpr ⟨hrest, List.all_eq_true.mpr fun c hc => ?_⟩
  exact agrees_mono hpart (List.all_eq_true.mp hactive c hc)

omit [DecidableEq α] in
theorem run_cons_of_agrees {table : List (Q × Regex κ)} {q : Q} {r : Regex κ} {c : α} {s : List α}
    (hqr : (q, r) ∈ table) (hc : S.agrees table q r c = true)
    (hrec : ∀ {q r}, (q, r) ∈ table → S.run q s = r.begins s) :
    S.run q (c :: s) = r.begins (c :: s) := by
  rw [agrees] at hc
  rw [run, Regex.begins]
  cases hj : S.jump q c with
  | inl b =>
    rw [hj] at hc
    cases b with
    | true =>
      rcases Bool.or_eq_true_iff.mp hc with h | h
      · rw [h, Bool.true_or]
      · rw [Regex.begins_of_nullable h, Bool.or_true]
    | false =>
      obtain ⟨hnull, hempty⟩ := Bool.and_eq_true_iff.mp hc
      rw [of_decide_eq_true hempty, Regex.begins_empty, Bool.or_false]
      exact (Bool.not_eq_true' _ ▸ hnull).symm
  | inr q' =>
    rw [hj] at hc
    obtain ⟨hkeep, hmem⟩ := Bool.and_eq_true_iff.mp hc
    have hnext : (q', r.deriv c) ∈ table := by
      rcases Bool.or_eq_true_iff.mp hmem with h | h
      · obtain ⟨hq, hr⟩ := Bool.and_eq_true_iff.mp h
        rw [of_decide_eq_true hq, of_decide_eq_true hr]
        exact hqr
      · obtain ⟨x, hx, h⟩ := List.any_eq_true.mp h
        obtain ⟨hq, hr⟩ := Bool.and_eq_true_iff.mp h
        rw [← of_decide_eq_true hq, ← of_decide_eq_true hr]
        exact hx
    refine (hrec hnext).trans ?_
    cases hnull : r.nullable with
    | false => rfl
    | true =>
      rw [hnull] at hkeep
      exact Regex.begins_of_nullable hkeep s

omit [DecidableEq Q] in
theorem run_cons_of_idles {q : Q} {r : Regex κ} {c : α} (s : List α) (hc : c ∉ S.active q)
    (hidle : S.idles q r = true) : S.run q (c :: s) = r.begins (c :: s) := by
  rw [idles] at hidle
  cases hb : S.idle q with
  | none =>
    rw [hb] at hidle
    exact absurd hidle Bool.false_ne_true
  | some b =>
    rw [hb] at hidle
    rw [run, S.jump_of_idle hc hb]
    cases b with
    | true => exact (Regex.begins_of_nullable hidle _).symm
    | false =>
      obtain ⟨hnull, hfirsts⟩ := Bool.and_eq_true_iff.mp hidle
      have hempty : r.deriv c = .empty := by
        apply Regex.deriv_eq_empty
        intro k hk
        rw [← Bool.not_eq_true]
        intro hhas
        have hall := List.all_eq_true.mp hfirsts k hk
        have hmem := List.all_eq_true.mp hall c (CharClass.mem_letters hhas)
        exact hc (List.contains_iff_mem.mp hmem)
      rw [Regex.begins, hempty, Regex.begins_empty, Bool.or_false]
      exact (Bool.not_eq_true' _ ▸ hnull).symm

/-- A certified scanner answers whether the text begins with a word of the
language. -/
theorem run_eq_begins {table : List (Q × Regex κ)} (hcert : S.certifies table = true)
    {q : Q} {r : Regex κ} (hqr : (q, r) ∈ table) (s : List α) : S.run q s = r.begins s := by
  induction s generalizing q r with
  | nil =>
    have hq := Bool.and_eq_true_iff.mp (List.all_eq_true.mp hcert _ hqr)
    exact beq_iff_eq.mp (Bool.and_eq_true_iff.mp hq.1).1
  | cons c s ih =>
    obtain ⟨hq, hactive⟩ := Bool.and_eq_true_iff.mp (List.all_eq_true.mp hcert _ hqr)
    by_cases hc : c ∈ S.active q
    · exact run_cons_of_agrees hqr (List.all_eq_true.mp hactive c hc) ih
    · exact run_cons_of_idles s hc (Bool.and_eq_true_iff.mp hq).2

end Scanner
