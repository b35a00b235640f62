import Mathlib.Data.List.Chain
import QueryCode.Proofs.Text.Infix

/-!
# Characters that must not meet

A ban says which characters must not stand in a text and which must not stand side by side, such as the two that
start an interpolation. It concerns a few marks only; all other characters are tame. What is cut out of a text avoids
the ban if the text does, and so do parts that are put together with tame text between them.
-/

namespace QueryCode
set_option autoImplicit false

namespace Text

/-! ## Tame text -/

/-- The characters that a language may treat specially inside a string. -/
def marks : List Char := ['#', '\x7b', '\n', '\r']

/-- The character is no mark. -/
def isTame (c : Char) : Bool := !marks.contains c

/-- A class without marks has tame characters only. -/
theorem isTame_of_class {p : Char → Bool} (unlisted : marks.any p = false) {c : Char} (member : p c = true) :
    isTame c = true := by
  rw [isTame, Bool.not_eq_true', List.contains_eq_mem, decide_eq_false_iff_not]
  intro listed
  exact List.any_eq_false.1 unlisted c listed member

/-- No character is a mark. -/
def Tame (t : Text) : Prop := ∀ c ∈ t, isTame c = true

instance (t : Text) : Decidable t.Tame := List.decidableBAll (fun c => isTame c = true) t

theorem tame_cons {c : Char} {t : Text} : Tame (c :: t) ↔ isTame c = true ∧ Tame t := List.forall_mem_cons

theorem tame_append {t u : Text} : Tame (t ++ u) ↔ Tame t ∧ Tame u := List.forall_mem_append

/-! ## Bans -/

/-- Characters that must not stand in a text, and pairs that must not stand side by side. Tame characters are never
concerned. -/
structure Ban where
  char : Char → Bool
  pair : Char → Char → Bool
  char_tame {c : Char} : isTame c = true → char c = false
  pair_left {c d : Char} : isTame c = true → pair c d = false
  pair_right {c d : Char} : isTame d = true → pair c d = false

/-- Nothing banned stands in the text. -/
structure Avoids (ban : Ban) (t : Text) : Prop where
  chars : ∀ c ∈ t, ban.char c = false
  pairs : t.IsChain fun c d => ban.pair c d = false

variable {ban : Ban} {t u : Text}

theorem avoids_nil : Avoids ban [] where
  chars := fun _ mem => absurd mem List.not_mem_nil
  pairs := .nil

/-- Nothing is banned. -/
def Ban.nothing : Ban where
  char := fun _ => false
  pair := fun _ _ => false
  char_tame := fun _ => rfl
  pair_left := fun _ => rfl
  pair_right := fun _ => rfl

theorem avoids_nothing (t : Text) : Avoids .nothing t where
  chars := fun _ _ => rfl
  pairs := List.isChain_iff_forall_rel_of_append_cons_cons.2 fun _ _ _ _ _ => rfl

theorem Avoids.of_part (avoids : Avoids ban t) (part : u <:+: t) : Avoids ban u where
  chars := fun c mem => avoids.chars c (part.subset mem)
  pairs := avoids.pairs.infix part

theorem Avoids.append (left : Avoids ban t) (right : Avoids ban u)
    (meet : ∀ c ∈ t.getLast?, ∀ d ∈ u.head?, ban.pair c d = false) : Avoids ban (t ++ u) where
  chars := List.forall_mem_append.2 ⟨left.chars, right.chars⟩
  pairs := left.pairs.append right.pairs meet

theorem Avoids.left (avoids : Avoids ban (t ++ u)) : Avoids ban t := avoids.of_part (List.prefix_append t u).isInfix

theorem Avoids.right (avoids : Avoids ban (t ++ u)) : Avoids ban u := avoids.of_part (List.suffix_append t u).isInfix

theorem Tame.avoids (tame : Tame t) : Avoids ban t where
  chars := fun c mem => ban.char_tame (tame c mem)
  pairs := by
    induction t with
    | nil => exact .nil
    | cons c t ih =>
      obtain ⟨first, rest⟩ := tame_cons.1 tame
      exact (ih rest).cons fun d _ => ban.pair_left first

theorem Avoids.append_tame (avoids : Avoids ban t) (tame : Tame u) : Avoids ban (t ++ u) :=
  avoids.append tame.avoids fun _ _ d head => ban.pair_right (tame d (List.mem_of_head? head))

theorem Tame.append_avoids (tame : Tame t) (avoids : Avoids ban u) : Avoids ban (t ++ u) :=
  tame.avoids.append avoids fun c last _ _ => ban.pair_left (tame c (List.mem_of_getLast? last))

/-- Tame text between two parts keeps them apart. -/
theorem Avoids.glue {sep : Text} (left : Avoids ban t) (right : Avoids ban u) (tame : Tame sep) (filled : sep ≠ []) :
    Avoids ban (t ++ sep ++ u) := by
  refine (left.append_tame tame).append right fun c last d _ => ban.pair_left (tame c ?_)
  rw [List.getLast?_append_of_ne_nil _ filled] at last
  exact List.mem_of_getLast? last

theorem Avoids.trim (avoids : Avoids ban t) : Avoids ban (Text.trim t) := avoids.of_part (infix_trim t)

theorem avoids_join {sep : Text} {parts : List Text} (each : ∀ part ∈ parts, Avoids ban part) (tame : Tame sep)
    (filled : sep ≠ []) : Avoids ban (join sep parts) := by
  induction parts with
  | nil => exact avoids_nil
  | cons part parts ih =>
    rw [List.forall_mem_cons] at each
    cases parts with
    | nil =>
      rw [join_singleton]
      exact each.1
    | cons next parts =>
      rw [join_cons_cons, ← List.append_assoc]
      exact each.1.glue (ih each.2) tame filled

/-- Hits may be kept or replaced by tame text. The text in front is what was kept since the last replacement. -/
theorem Avoids.append_mapHits {f : Text → Text} {parts : List Part} {lead : Text}
    (changed : ∀ hit ∈ hits parts, f hit = hit ∨ (Tame (f hit) ∧ f hit ≠ []))
    (avoids : Avoids ban (lead ++ mapHits id parts)) : Avoids ban (lead ++ mapHits f parts) := by
  induction parts generalizing lead with
  | nil => exact avoids
  | cons part parts ih =>
    cases part with
    | plain c =>
      have one (g : Text → Text) : lead ++ mapHits g (.plain c :: parts) = lead ++ [c] ++ mapHits g parts := by
        rw [List.append_assoc]
        rfl
      rw [one] at avoids ⊢
      exact ih changed avoids
    | hit found =>
      have one (g : Text → Text) : lead ++ mapHits g (.hit found :: parts) = lead ++ g found ++ mapHits g parts := by
        rw [List.append_assoc]
        rfl
      rw [one] at avoids ⊢
      rcases changed found List.mem_cons_self with same | ⟨tame, filled⟩
      · rw [same]
        exact ih (fun hit mem => changed hit (List.mem_cons_of_mem _ mem)) avoids
      · have rest : Avoids ban ([] ++ mapHits f parts) :=
          ih (fun hit mem => changed hit (List.mem_cons_of_mem _ mem)) avoids.right
        exact avoids.left.left.glue rest tame filled

theorem Avoids.mapHits_mark {f : Text → Text} {p : Scan Unit} (avoids : Avoids ban t)
    (changed : ∀ hit ∈ hits (mark p t), f hit = hit ∨ (Tame (f hit) ∧ f hit ≠ [])) :
    Avoids ban (mapHits f (mark p t)) := by
  have whole : Avoids ban ([] ++ mapHits id (mark p t)) := by rwa [List.nil_append, Text.mapHits_mark]
  exact whole.append_mapHits changed

end Text
end QueryCode
