import QueryCode.Proofs.Text.Fold
import QueryCode.Proofs.Text.Replace
import QueryCode.Relation.Rename

/-!
# The alias of the main table

In kept text the alias of the main table gives way to the table's name. The alias counts where it stands as a word with a
point behind it, outside quoted literals. No such place is inside another, and a name that differs from the alias brings
no new ones, so one pass finds them all, and the literals stay as they are.
-/

namespace QueryCode
set_option autoImplicit false

namespace Relation

open Text

/-! ## Names with a point -/

/-- The alias in some letter case, with a point. -/
def Pointed (given t : Text) : Prop := ∃ word, sameFold given word = true ∧ t = word ++ ['.']

/-- Inside a name with a point no word starts. -/
theorem last_of_pointed {name u v : Text} (word : IsWordName name) (split : u ++ v = name ++ ['.']) (left : u ≠ [])
    (right : v ≠ []) : u.getLast?.any isWord = true := by
  have front : name = u ++ v.dropLast := by
    rw [← List.dropLast_append_of_ne_nil right, split, List.dropLast_concat]
  rw [List.getLast?_eq_some_getLast left]
  exact word.word _ (front ▸ List.mem_append_left _ (List.getLast_mem left))

/-- A name ends at the first point behind it. -/
theorem eq_of_pointed {name name' after after' : Text} (word : IsWordName name) (word' : IsWordName name')
    (same : name ++ ['.'] ++ after = name' ++ ['.'] ++ after') : name = name' := by
  rw [List.append_assoc, List.append_assoc] at same
  have edge (after : Text) : (['.'] ++ after).head?.any isWord = false := (by decide : isWord '.' = false)
  exact (eq_of_runs same word.word (edge after) word'.word (edge after')).1

theorem plain_pointed {name : Text} (word : IsWordName name) : Plain (name ++ ['.']) :=
  plain_append.2 ⟨plain_of_class (by decide) word.word, by decide⟩

section Shape

variable {given : Text} (named : IsWordName given)
include named

theorem not_isJoint_pointed {u v : Text} : ¬ IsJoint (Pointed given) u v := by
  rintro ⟨⟨word, same, split⟩, left, right, edge⟩
  rw [last_of_pointed (named.of_sameFold same) split left right] at edge
  cases edge

theorem isShape_pointed : IsShape (Pointed given) where
  head := by
    rintro t ⟨word, same, rfl⟩
    have name := named.of_sameFold same
    obtain ⟨c, more, rfl⟩ := List.exists_cons_of_ne_nil name.filled
    exact name.word c List.mem_cons_self
  clean := by
    rintro t ⟨word, same, rfl⟩ c mem
    have name := named.of_sameFold same
    refine ⟨plain_pointed name c mem, ?_⟩
    rintro rfl
    rcases List.mem_append.1 mem with inside | point
    · exact absurd (name.word ' ' inside) (by decide)
    · exact absurd point (by decide)
  unique := by
    rintro last t t' after after' ⟨⟨word, same, rfl⟩, -, -⟩ ⟨⟨word', same', rfl⟩, -, -⟩ split
    rw [eq_of_pointed (named.of_sameFold same) (named.of_sameFold same') split]
  joint := fun joint => absurd joint (not_isJoint_pointed named)

/-- The pattern fits where the alias stands with a point. -/
theorem finds_aliasPoint : Finds (aliasPoint given) (Pointed given) := by
  intro offset last rest after
  unfold aliasPoint
  simp only [Scan.bind_some, Scan.discard_some, Scan.edge_some, Scan.char]
  constructor
  · rintro ⟨stop, ⟨_, _, ⟨edge, rfl⟩, _, mid, ⟨word, letters⟩, c, point⟩, rfl⟩
    obtain ⟨behind, rfl, same, rfl⟩ := Scan.letters_at.1 letters
    obtain ⟨after, rfl, is, rfl⟩ := Scan.one_at.1 point
    obtain rfl := eq_of_beq is
    refine ⟨word ++ ['.'], by rw [List.append_assoc]; rfl, ⟨word, same, rfl⟩, ?_, fun word => ?_⟩
    · have head : (word ++ '.' :: after).head?.any isWord = true := by
        have name := named.of_sameFold same
        obtain ⟨d, more, rfl⟩ := List.exists_cons_of_ne_nil name.filled
        exact name.word d List.mem_cons_self
      rw [Cursor.atEdge, head] at edge
      simpa using edge
    · rw [List.getLast?_concat] at word
      exact absurd word (by decide)
  · rintro ⟨found, rfl, ⟨⟨word, same, rfl⟩, starts, -⟩⟩
    refine ⟨_, ⟨(), _, ⟨?_, rfl⟩, (), _, ⟨word, Scan.letters_at.2 ⟨'.' :: after, by rw [List.append_assoc]; rfl, same, rfl⟩⟩,
      '.', Scan.one_at.2 ⟨after, rfl, rfl, rfl⟩⟩, rfl⟩
    have head := (isShape_pointed named).head_append ⟨word, same, rfl⟩ after
    rw [Cursor.atEdge, head, starts]
    rfl

/-- What stands in place of the alias: a hit again only if the table has the name of the alias. -/
def inPlace (given table : Text) : List Part :=
  if sameFold given table then [.hit (table ++ ['.'])] else (table ++ ['.']).map .plain

omit named in
theorem source_inPlace (given table : Text) : source (inPlace given table) = table ++ ['.'] := by
  unfold inPlace
  split
  · exact List.append_nil _
  · exact source_map_plain _

theorem standsFor_inPlace {table : Text} (name : IsWordName table) {t : Text} (holds : Pointed given t) :
    StandsFor (Pointed given) t (inPlace given table) := by
  unfold inPlace
  split
  · rename_i same
    obtain ⟨word, _, rfl⟩ := holds
    refine standsFor_hit (isShape_pointed named) ⟨table, same, rfl⟩ ?_
    rw [List.getLast?_concat, List.getLast?_concat]
  · rename_i other
    refine standsFor_text (by simp) (plain_pointed name) (by rw [List.getLast?_concat]; decide)
      (fun u v after rest joint => absurd joint (not_isJoint_pointed named)) ?_
    rintro u v found after rest split edge ⟨word, same, rfl⟩ right shown
    have word' := named.of_sameFold same
    by_cases left : u = []
    · subst left
      obtain rfl : table ++ ['.'] = v := split
      rw [eq_of_pointed name word' shown] at other
      exact other same
    · rw [last_of_pointed name split.symm left right] at edge
      cases edge

end Shape

/-! ## The text without the alias -/

variable {s : Statement} {given : Text}

theorem dealias_eq (aliased : s.alias? = some given) (t : Text) :
    dealias s t = mapHits (fun _ => s.table ++ ['.']) (mark (aliasPoint given) t) := by
  rw [dealias, aliased]
  rfl

theorem dealias_of_none (bare : s.alias? = none) (t : Text) : dealias s t = t := by
  rw [dealias, bare]

/-- **The alias is replaced outside quoted literals, and everywhere there.** The mask of the changed text is the changed
mask, its literals are those of the text, the alias with a point stands nowhere in the mask unless it is the table's name
in some letter case, and a second pass changes nothing. -/
theorem dealias_spares_quotations {s : Statement} (table : IsWordName s.table)
    (named : ∀ given ∈ s.alias?, IsWordName given) (t : Text) :
    mask .quotes (dealias s t) = dealias s (mask .quotes t) ∧ quotations (dealias s t) = quotations t ∧
      (∀ given ∈ s.alias?, sameFold given s.table = false →
        (aliasPoint given).occurs (mask .quotes (dealias s t)) = false) ∧
      dealias s (dealias s t) = dealias s t := by
  cases aliased : s.alias? with
  | none =>
    simp only [dealias_of_none aliased]
    refine ⟨trivial, trivial, fun given mem => ?_, trivial⟩
    cases mem
  | some given =>
    have name : IsWordName given := named given aliased
    have finds := finds_aliasPoint name
    have shape := isShape_pointed name
    have stands : ∀ t, Pointed given t → StandsFor (Pointed given) t (inPlace given s.table) :=
      fun t holds => standsFor_inPlace name table holds
    have same : ∀ t, Pointed given t → source (inPlace given s.table) = s.table ++ ['.'] :=
      fun t _ => source_inPlace given s.table
    have marks := mark_mapHits finds shape same stands t
    have found : hits (mark (aliasPoint given) (dealias s t)) =
        (hits (mark (aliasPoint given) t)).flatMap fun _ => hits (inPlace given s.table) := by
      rw [dealias_eq aliased, marks, hits_replace]
    simp only [dealias_eq aliased] at found ⊢
    refine ⟨mask_mapHits finds shape same stands t, quotations_mapHits finds shape same stands t, fun other mem differs => ?_, ?_⟩
    · cases mem
      refine occurs_mask_eq_false finds shape (found.trans ?_)
      rw [inPlace, differs, if_neg Bool.false_ne_true, hits_map_plain, List.flatMap_eq_nil_iff]
      exact fun _ _ => rfl
    · -- what a second pass finds is the table's name, which it leaves as it is
      rw [mapHits_eq_self, source_mark]
      intro word mem
      rw [found, List.mem_flatMap] at mem
      obtain ⟨_, _, mem⟩ := mem
      rw [inPlace] at mem
      split at mem
      · exact (List.mem_singleton.1 mem).symm
      · rw [hits_map_plain] at mem
        cases mem

/-- The alias in capitals, at the end of a longer name, and twice in a literal. -/
theorem dealias_spares_quotations_literal :
    let s : Statement := { main := some ⟨"users".toList, some "u".toList⟩ }
    let t := "U.name = 'u.x''u.y' AND menu.id = u.id".toList
    dealias s t = "users.name = 'u.x''u.y' AND menu.id = users.id".toList ∧
      mask .quotes (dealias s t) = dealias s (mask .quotes t) ∧ quotations (dealias s t) = ["'u.x''u.y'".toList] ∧
      (aliasPoint "u".toList).occurs (mask .quotes (dealias s t)) = false ∧ dealias s (dealias s t) = dealias s t := by
  intro s t
  have named : ∀ given ∈ s.alias?, IsWordName given := by
    rintro _ ⟨⟩
    decide
  obtain ⟨masked, literals, absent, twice⟩ := dealias_spares_quotations (s := s) (by decide) named t
  exact ⟨by decide, masked, literals.trans (by decide), absent _ rfl (by decide), twice⟩

end Relation
end QueryCode
