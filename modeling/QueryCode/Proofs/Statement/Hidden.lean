import Mathlib.Data.List.Forall2
import QueryCode.Proofs.Statement.Total
import QueryCode.Proofs.Text.Hidden

/-!
# Hidden text does not change the clauses

Two statements of the same mask differ only inside literals and parentheses. Every pattern fits the one where it fits
the other, so their clauses are cut out at the same places, and what is cut out has the same mask again: `Twin`. Lists
then have as many items, and all that is read from the mask alone is equal: `parse_mask_congr`.
-/

namespace QueryCode
set_option autoImplicit false

open Text Text.Cursor Text.Scan Pattern

/-! ## Two computations -/

/-- Computations over related lists that give related results. -/
theorem exists_mapM_forall₂ {α β γ δ : Type} {S : α → β → Prop} {R : γ → δ → Prop} {f : α → Except Fault γ}
    {g : β → Except Fault δ} (step : ∀ a b, S a b → ∃ c d, f a = .ok c ∧ g b = .ok d ∧ R c d) {as : List α} {bs : List β}
    (alike : List.Forall₂ S as bs) : ∃ cs ds, as.mapM f = .ok cs ∧ bs.mapM g = .ok ds ∧ List.Forall₂ R cs ds := by
  induction alike with
  | nil => exact ⟨[], [], rfl, rfl, .nil⟩
  | @cons a b as bs first rest ih =>
    obtain ⟨c, d, read, read', related⟩ := step a b first
    obtain ⟨cs, ds, reads, reads', all⟩ := ih
    refine ⟨c :: cs, d :: ds, ?_, ?_, .cons related all⟩
    · rw [List.mapM_cons, read, reads]
      rfl
    · rw [List.mapM_cons, read', reads']
      rfl

/-! ## The kind of a statement -/

namespace Text.Scan

variable {α β : Type}

/-- On a text and on its mask the scan finds the same and takes the same characters, which show. -/
def Transparent (p : Scan α) : Prop :=
  ∀ before t, (p (between before t) = none ∧ p (between before (mask .nested t)) = none) ∨
    ∃ a taken after, t = taken ++ after ∧ mask .nested t = taken ++ mask .nested after ∧
      p (between before t) = some (a, between (before ++ taken) after) ∧
      p (between before (mask .nested t)) = some (a, between (before ++ taken) (mask .nested after))

theorem transparent_pure (a : α) : Transparent (pure a) :=
  fun before t => .inr ⟨a, [], t, rfl, rfl, by rw [List.append_nil]; rfl, by rw [List.append_nil]; rfl⟩

theorem Transparent.bind {p : Scan α} {f : α → Scan β} (first : Transparent p) (rest : ∀ a, Transparent (f a)) :
    Transparent (p >>= f) := by
  intro before t
  rcases first before t with ⟨missing, missing'⟩ | ⟨a, taken, after, rfl, shown, found, found'⟩
  · exact .inl ⟨bind_of_none missing, bind_of_none missing'⟩
  · rw [bind_of_some found, bind_of_some found']
    rcases rest a (before ++ taken) after with ⟨missing, missing'⟩ | ⟨b, taken', after', rfl, shown', found, found'⟩
    · exact .inl ⟨missing, missing'⟩
    · refine .inr ⟨b, taken ++ taken', after', by rw [List.append_assoc], ?_, ?_, ?_⟩
      · rw [shown, shown', List.append_assoc]
      · rw [found, List.append_assoc]
      · rw [found', List.append_assoc]

theorem transparent_first {ps : List (Scan α)} (each : ∀ p ∈ ps, Transparent p) : Transparent (first ps) := by
  induction ps with
  | nil => exact fun before t => .inl ⟨rfl, rfl⟩
  | cons p ps ih =>
    rw [List.forall_mem_cons] at each
    intro before t
    rw [first, orElse_apply, orElse_apply]
    rcases each.1 before t with ⟨missing, missing'⟩ | ⟨a, taken, after, whole, shown, found, found'⟩
    · rw [missing, missing']
      exact ih each.2 before t
    · rw [found, found']
      exact .inr ⟨a, taken, after, whole, shown, rfl, rfl⟩

theorem transparent_edge : Transparent edge := by
  intro before t
  have same : (between before (mask .nested t)).atEdge = (between before t).atEdge := by
    rw [atEdge_between, atEdge_between, head_mask]
  rw [edge, edge, same]
  split
  · exact .inr ⟨(), [], t, rfl, rfl, by rw [List.append_nil], by rw [List.append_nil]⟩
  · exact .inl ⟨rfl, rfl⟩

theorem transparent_blanks : Transparent blanks := by
  intro before t
  have blank : Blank (t.takeWhile isBlank) := fun c mem => List.mem_takeWhile_imp mem
  have solid := head_trimStart_any t
  have shown := mask_eq_trimStart t
  refine .inr ⟨(), _, _, List.takeWhile_append_dropWhile.symm, shown, ?_, ?_⟩
  · exact blanks_some.2 ⟨_, _, List.takeWhile_append_dropWhile.symm, blank, solid, rfl⟩
  · exact blanks_some.2 ⟨_, _, shown, blank, by rwa [head_mask], rfl⟩

theorem transparent_letters {w : Text} (lower : isLowerWord w = true) : Transparent (letters w) := by
  intro before t
  have plain {word : Text} (same : sameFold w word = true) : Plain word :=
    plain_of_class (by decide) (isWord_of_sameFold lower same)
  cases found : letters w (between before t) with
  | some hit =>
    obtain ⟨word, stop⟩ := hit
    obtain ⟨after, rfl, same, rfl⟩ := letters_some.1 found
    have shown : mask .nested (word ++ after) = word ++ mask .nested after := mask_plain_append _ (plain same)
    exact .inr ⟨word, word, after, rfl, shown, rfl, letters_some.2 ⟨_, shown, same, rfl⟩⟩
  | none =>
    refine .inl ⟨rfl, Option.eq_none_iff_forall_ne_some.2 fun hit found' => ?_⟩
    obtain ⟨word, stop⟩ := hit
    obtain ⟨after, split, same, -⟩ := letters_some.1 found'
    obtain ⟨v, rfl, -⟩ := exists_of_mask_plain split (plain same)
    cases found.symm.trans (letters_some.2 ⟨v, rfl, same, rfl⟩)

end Text.Scan

namespace Statement

/-- The kind of a statement shows in its mask. -/
theorem kindOf_mask (t : Text) : kindOf (mask .nested t) = kindOf t := by
  have transparent : Transparent Pattern.statement := by
    have words : Transparent (first (statementWords.map letters)) := by
      refine transparent_first fun p mem => ?_
      obtain ⟨w, listed, rfl⟩ := List.mem_map.1 mem
      have lower : ∀ w ∈ statementWords, isLowerWord w = true := by decide
      exact transparent_letters (lower w listed)
    exact transparent_blanks.bind fun _ => words.bind fun _ => transparent_edge.bind fun _ => transparent_pure _
  unfold kindOf
  rcases transparent [] t with ⟨missing, missing'⟩ | ⟨a, taken, after, -, -, found, found'⟩
  · rw [start_eq, start_eq, missing, missing']
  · rw [start_eq, start_eq, found, found']

/-! ## Clauses at the same places -/

/-- The two texts stand at the same byte offsets of the two statements. -/
def SameSlice (s t x y : Text) : Prop := ∃ a b, slice a b s = .ok x ∧ slice a b t = .ok y

/-- Texts at the same places of two statements, with the same mask. -/
structure Twin (s t x y : Text) : Prop where
  slices : SameSlice s t x y
  masks : mask .nested x = mask .nested y

theorem mask_eq_nil {t : Text} : mask .nested t = [] ↔ t = [] := by
  rw [← List.head?_eq_none_iff, head_mask, List.head?_eq_none_iff]

theorem Twin.isEmpty {s t x y : Text} (twin : Twin s t x y) : x.isEmpty = y.isEmpty := by
  rw [Bool.eq_iff_iff, List.isEmpty_iff, List.isEmpty_iff, ← mask_eq_nil, twin.masks, mask_eq_nil]

namespace Source

/-- What is cut out of two statements of the same mask between the same places has the same mask. -/
theorem IsCut.congr {s t u x v u' x' v' : Text} {cur : Cursor} (cut : IsCut s u x v cur) (cut' : IsCut t u' x' v' cur)
    (same : Text.mask .nested s = Text.mask .nested t) (stop : Text.size (u ++ x) = Text.size (u' ++ x')) :
    Text.mask .nested x = Text.mask .nested x' ∧ Text.size u = Text.size u' ∧ (v = [] ↔ v' = []) := by
  have place := cut.place.symm.trans cut'.place
  have start : Text.size u = Text.size u' := by
    have offsets := congrArg Cursor.offset place
    rwa [offset_between, offset_between, size_mask, size_mask] at offsets
  have shown : Text.mask .nested (x ++ v) = Text.mask .nested (x' ++ v') := congrArg Cursor.rest place
  have total : Text.size s = Text.size t := by rw [← size_mask .nested s, same, size_mask]
  rw [cut.whole, cut'.whole, size_append, size_append, size_append, size_append] at total
  rw [size_append, size_append] at stop
  have tails : v = [] ↔ v' = [] := by
    rw [← size_eq_zero, ← size_eq_zero]
    omega
  refine ⟨?_, start, tails⟩
  by_cases empty : v = []
  · rwa [empty, tails.1 empty, List.append_nil, List.append_nil] at shown
  · obtain ⟨closed, apart⟩ := cut.ends.resolve_left empty
    obtain ⟨closed', apart'⟩ := cut'.ends.resolve_left (tails.not.1 empty)
    rw [mask_append _ closed apart, mask_append _ closed' apart'] at shown
    refine (append_inj_of_size shown ?_).1
    rw [size_mask, size_mask]
    omega

section Clauses

variable {s t : Text} (same : Text.mask .nested s = Text.mask .nested t) {n : Nat} {stop : Scan Unit} {ks : List Key}
  (starts : Starts stop ks) (lower : ∀ k ∈ ks, k.isLower = true)
include same starts lower

/-- What is cut out from a place on. -/
theorem exists_slices {cur : Cursor} (top : Top s n cur) (top' : Top t n cur) :
    ∃ u x v u' x' v', IsCut s u x v cur ∧ IsCut t u' x' v' cur ∧
      (ofText s).endFrom stop cur = Text.size (u ++ x) ∧ (ofText t).endFrom stop cur = Text.size (u' ++ x') ∧
      Text.mask .nested x = Text.mask .nested x' ∧ Text.size u = Text.size u' ∧ (v = [] ↔ v' = []) := by
  obtain ⟨u, x, v, cut, ends⟩ := exists_isCut starts lower top
  obtain ⟨u', x', v', cut', ends'⟩ := exists_isCut starts lower top'
  have stops : (ofText s).endFrom stop cur = (ofText t).endFrom stop cur := by
    rw [endFrom, endFrom, show (ofText s).mask = (ofText t).mask from same]
  exact ⟨u, x, v, u', x', v', cut, cut', ends, ends', cut.congr cut' same (by rw [← ends, stops, ends'])⟩

variable (last : s.getLast?.any isBlank = false) (last' : t.getLast?.any isBlank = false)
include last last'

/-- The texts of a clause, without the white space around them. -/
theorem twin_body {cur : Cursor} (top : Top s n cur) (top' : Top t n cur) :
    ∃ x y, (ofText s).body cur stop = .ok x ∧ (ofText t).body cur stop = .ok y ∧ Twin s t x y := by
  obtain ⟨u, x, v, u', x', v', cut, cut', ends, ends', masks, start, tails⟩ := exists_slices same starts lower top top'
  have trimmed : Text.mask .nested (trim x) = Text.mask .nested (trim x') := by
    refine mask_trim_congr masks ?_
    by_cases empty : v = []
    · have whole := cut.whole
      have whole' := cut'.whole
      rw [empty, List.append_nil] at whole
      rw [tails.1 empty, List.append_nil] at whole'
      exact .inr ⟨last_of_append (whole ▸ last), last_of_append (whole' ▸ last')⟩
    · exact .inl ⟨(cut.ends.resolve_left empty).1, (cut'.ends.resolve_left (tails.not.1 empty)).1⟩
  have lead : x.takeWhile isBlank = x'.takeWhile isBlank := by rw [← takeWhile_mask, masks, takeWhile_mask]
  have sliced {s u x v : Text} (cut : IsCut s u x v cur) :
      slice (Text.size u + Text.size (x.takeWhile isBlank))
        (Text.size u + Text.size (x.takeWhile isBlank) + Text.size (trim x)) s = .ok (trim x) := by
    obtain ⟨trail, -, tail⟩ := exists_trimEnd (trimStart x)
    have split : x.takeWhile isBlank ++ (trim x ++ trail) = x := by
      rw [trim, ← tail, trimStart, List.takeWhile_append_dropWhile]
    have whole : s = u ++ x.takeWhile isBlank ++ trim x ++ (trail ++ v) := by
      calc s = u ++ (x.takeWhile isBlank ++ (trim x ++ trail) ++ v) := by rw [split, ← cut.whole]
        _ = u ++ x.takeWhile isBlank ++ trim x ++ (trail ++ v) := by simp only [List.append_assoc]
    have sliced := slice_append (u ++ x.takeWhile isBlank) (trim x) (trail ++ v)
    rwa [← whole, size_append (u ++ _), size_append] at sliced
  refine ⟨trim x, trim x', ?_, ?_, ⟨_, _, sliced cut, ?_⟩, trimmed⟩
  · rw [body, ends]
    exact congrArg (Except.map trim) cut.slice
  · rw [body, ends']
    exact congrArg (Except.map trim) cut'.slice
  · have wide : Text.size (trim x) = Text.size (trim x') := by
      rw [← size_mask .nested (trim x), trimmed, size_mask]
    have other := sliced cut'
    rwa [← start, ← lead, ← wide] at other

theorem twin_clause {start : Scan Unit} (leads : ∀ t, Leads (Ahead (Text.mask .nested t) 0) start fun _ => Top t 1) :
    ∃ x y, (ofText s).clause start stop = .ok x ∧ (ofText t).clause start stop = .ok y ∧ Option.Rel (Twin s t) x y := by
  have finds : (ofText s).find start = (ofText t).find start := congrArg (fun m => Scan.find start (Cursor.start m)) same
  unfold clause
  rw [finds]
  cases found : (ofText t).find start with
  | none => exact ⟨none, none, rfl, rfl, .none⟩
  | some hit =>
    obtain ⟨place', fits⟩ := find_ahead (ahead_start _) found
    have place : Ahead (Text.mask .nested s) 0 hit.start := same.symm ▸ place'
    obtain ⟨x, y, read, read', twin⟩ :=
      twin_body same starts lower last last' (leads s _ _ _ place fits) (leads t _ _ _ place' fits)
    dsimp only
    rw [read, read']
    refine ⟨if x.isEmpty then none else some x, if y.isEmpty then none else some y, rfl, rfl, ?_⟩
    rw [twin.isEmpty]
    split
    · exact .none
    · exact .some twin

end Clauses

/-! ## Lists -/

theorem isInk_comma : isInk ',' = true := by decide

theorem splitTop_ne_nil {sep : Char} {x : Text} {items : List Text} (split : splitTop sep x = .ok items) :
    ∀ item ∈ items, item ≠ [] := by
  have filled : Ensures (splitTop sep x) fun items => ∀ item ∈ items, item ≠ [] := by
    refine .after _ fun pieces => ensures_pure ?_
    intro item mem
    simpa using (List.mem_filter.1 mem).2
  exact filled items split

/-- Whatever stands before the end of a text, a scan that fits there fits after some beginning. -/
theorem isSome_shortest {α : Type} {p : Scan α} (ends : (Scan.whole? p []).isSome = true) {x : Text} (filled : x ≠ []) :
    (Scan.shortest? p x).isSome = true := by
  have go : ∀ rest head, (Scan.shortest?.go p head rest).isSome = true := by
    intro rest
    induction rest with
    | nil =>
      intro head
      obtain ⟨a, found⟩ := Option.isSome_iff_exists.1 ends
      rw [Scan.shortest?.go, found]
      rfl
    | cons c rest ih =>
      intro head
      rw [Scan.shortest?.go]
      split
      · rfl
      · exact ih (c :: head)
  obtain ⟨c, rest, rfl⟩ := List.exists_cons_of_ne_nil filled
  exact go rest [c]

theorem isSome_orderTerm {item : Text} (filled : item ≠ []) : (orderTerm? item).isSome = true := by
  have ends : (Scan.whole? Pattern.orderTail []).isSome = true := by decide
  rw [orderTerm?, Option.isSome_map]
  exact isSome_shortest ends filled

theorem length_orderTerms {items : List Text} (filled : ∀ item ∈ items, item ≠ []) :
    (items.filterMap orderTerm?).length = items.length := by
  induction items with
  | nil => rfl
  | cons item items ih =>
    rw [List.forall_mem_cons] at filled
    obtain ⟨term, found⟩ := Option.isSome_iff_exists.1 (isSome_orderTerm filled.1)
    rw [List.filterMap_cons_some found, List.length_cons, List.length_cons, ih filled.2]

/-- As many assignments are read where an equals sign shows in the same items. -/
theorem length_filterMap_id {α : Type} {xs ys : List (Option α)}
    (alike : List.Forall₂ (fun x y => x.isSome = y.isSome) xs ys) : (xs.filterMap id).length = (ys.filterMap id).length := by
  induction alike with
  | nil => rfl
  | @cons x y xs ys same rest ih =>
    cases x <;> cases y <;> simp_all

section Lists

variable {s t : Text} (same : Text.mask .nested s = Text.mask .nested t) (last : s.getLast?.any isBlank = false)
  (last' : t.getLast?.any isBlank = false)
include same last last'

omit last last' in
theorem twin_selectColumns :
    ∃ cs ds distinct, (ofText s).selectColumns = .ok (cs, distinct) ∧ (ofText t).selectColumns = .ok (ds, distinct) ∧
      cs.length = ds.length := by
  have lists : Pattern.selectList (Cursor.start (ofText s).mask) = Pattern.selectList (Cursor.start (ofText t).mask) :=
    congrArg (fun m => Pattern.selectList (Cursor.start m)) same
  unfold selectColumns
  rw [lists]
  cases found : Pattern.selectList (Cursor.start (ofText t).mask) with
  | none => exact ⟨[], [], false, rfl, rfl, rfl⟩
  | some hit =>
    obtain ⟨distinct, start⟩ := hit
    have top := leads_selectList _ _ _ (top_start s) (lists.trans found)
    have top' := leads_selectList _ _ _ (top_start t) found
    obtain ⟨u, x, v, u', x', v', cut, cut', ends, ends', masks, -⟩ :=
      exists_slices same (starts_word (w := "from") (by decide)) (by decide) top top'
    obtain ⟨ps, qs, split, split', alike⟩ := exists_splitTop isInk_comma masks
    refine ⟨ps.map column, qs.map column, distinct, ?_, ?_, by simp [alike.length_eq]⟩
    · dsimp only
      rw [ends, show (ofText s).text = s from rfl, cut.slice]
      dsimp only [bind, Except.bind]
      rw [split]
      rfl
    · dsimp only
      rw [ends', show (ofText t).text = t from rfl, cut'.slice]
      dsimp only [bind, Except.bind]
      rw [split']
      rfl

theorem twin_groupBy :
    ∃ cs ds, (ofText s).groupBy = .ok cs ∧ (ofText t).groupBy = .ok ds ∧ cs.length = ds.length := by
  obtain ⟨x, y, read, read', twins⟩ :=
    twin_clause same starts_groupEnd (by decide) last last' fun t => leads_phrase (v := "group") (w := "by") (by decide) (by decide)
  unfold groupBy
  rw [read, read']
  cases twins with
  | none => exact ⟨[], [], rfl, rfl, rfl⟩
  | @some x y twin =>
    obtain ⟨ps, qs, split, split', alike⟩ := exists_splitTop isInk_comma twin.masks
    refine ⟨ps.map columnName, qs.map columnName, ?_, ?_, by simp [alike.length_eq]⟩
    · dsimp only [bind, Except.bind]
      rw [split]
      rfl
    · dsimp only [bind, Except.bind]
      rw [split']
      rfl

theorem twin_orderBy :
    ∃ cs ds, (ofText s).orderBy = .ok cs ∧ (ofText t).orderBy = .ok ds ∧ cs.length = ds.length := by
  obtain ⟨x, y, read, read', twins⟩ :=
    twin_clause same starts_orderEnd (by decide) last last' fun t => leads_phrase (v := "order") (w := "by") (by decide) (by decide)
  unfold orderBy
  rw [read, read']
  cases twins with
  | none => exact ⟨[], [], rfl, rfl, rfl⟩
  | @some x y twin =>
    obtain ⟨ps, qs, split, split', alike⟩ := exists_splitTop isInk_comma twin.masks
    refine ⟨ps.filterMap orderTerm?, qs.filterMap orderTerm?, ?_, ?_, ?_⟩
    · dsimp only [bind, Except.bind]
      rw [split]
      rfl
    · dsimp only [bind, Except.bind]
      rw [split']
      rfl
    · rw [length_orderTerms (splitTop_ne_nil split), length_orderTerms (splitTop_ne_nil split'), alike.length_eq]

theorem twin_assignments :
    ∃ cs ds, (ofText s).assignments = .ok cs ∧ (ofText t).assignments = .ok ds ∧ cs.map List.length = ds.map List.length := by
  obtain ⟨x, y, read, read', twins⟩ :=
    twin_clause same starts_setEnd (by decide) last last' fun t => leads_word (w := "set") (by decide)
  unfold assignments
  rw [read, read']
  cases twins with
  | none => exact ⟨none, none, rfl, rfl, rfl⟩
  | @some x y twin =>
    obtain ⟨ps, qs, split, split', alike⟩ := exists_splitTop isInk_comma twin.masks
    obtain ⟨cs, ds, reads, reads', pairs⟩ : ∃ cs ds, ps.mapM assignment? = .ok cs ∧ qs.mapM assignment? = .ok ds ∧
        List.Forall₂ (fun c d => c.isSome = d.isSome) cs ds := by
      refine exists_mapM_forall₂ (fun p q shown => ?_) alike
      obtain ⟨c, cut, sign⟩ := assignment_spec p
      obtain ⟨d, cut', sign'⟩ := assignment_spec q
      refine ⟨c, d, cut, cut', ?_⟩
      rw [Bool.eq_iff_iff, sign, sign', shown '=' (by decide)]
    refine ⟨some (cs.filterMap id), some (ds.filterMap id), ?_, ?_, congrArg some (length_filterMap_id pairs)⟩
    · dsimp only [bind, Except.bind]
      rw [split]
      dsimp only
      rw [reads]
      rfl
    · dsimp only [bind, Except.bind]
      rw [split']
      dsimp only
      rw [reads']
      rfl

end Lists

/-! ## Joins -/

/-- A place reached over characters that show. -/
def Passed (before rest : Text) (cur : Cursor) : Prop :=
  ∃ taken after, rest = taken ++ after ∧ Plain taken ∧ cur = between (before ++ taken) after

theorem passed_append {before lead taken after : Text} (plain : Plain lead) (plain' : Plain taken) :
    Passed before (lead ++ (taken ++ after)) (between (before ++ lead ++ taken) after) :=
  ⟨lead ++ taken, after, by rw [List.append_assoc], plain_append.2 ⟨plain, plain'⟩, by rw [List.append_assoc]⟩

/-- The words of a join show. -/
theorem passed_wordsEnd {before rest : Text} {m : JoinMatch} {stop : Cursor}
    (fits : Pattern.join (between before rest) = some (m, stop)) : Passed before rest m.wordsEnd := by
  have keyword (w : Text) (lower : isLowerWord w = true) : Leads (Passed before rest) (letters w) fun _ => Passed before rest := by
    rintro _ word _ ⟨lead, tail, rfl, plain, rfl⟩ found
    obtain ⟨after, rfl, same, rfl⟩ := letters_some.1 found
    exact passed_append plain (plain_of_class (by decide) (isWord_of_sameFold lower same))
  have gap : Leads (Passed before rest) blanks1 fun _ => Passed before rest := by
    rintro _ _ _ ⟨lead, tail, rfl, plain, rfl⟩ found
    obtain ⟨gap, after, rfl, -, blank, -, rfl⟩ := blanks1_some.1 found
    exact passed_append plain blank.plain
  have start : Passed before rest (between before rest) := ⟨[], rest, rfl, plain_nil, by rw [List.append_nil]⟩
  obtain ⟨_, _, edge, fits⟩ := bind_some.1 fits
  obtain ⟨-, rfl⟩ := edge_some.1 edge
  obtain ⟨⟨kind, outer⟩, mid, words, fits⟩ := bind_some.1 fits
  have passed : Passed before rest mid := leads_joinWords_of keyword gap keyword _ _ _ start words
  obtain ⟨_, _, ⟨⟩, fits⟩ := bind_some.1 fits
  obtain ⟨_, _, -, fits⟩ := bind_some.1 fits
  obtain ⟨table, _, -, fits⟩ := bind_some.1 fits
  cases fits
  exact passed

/-- The joins agree, but for what is hidden in their conditions. -/
structure TwinJoin (s t : Text) (j k : Join) : Prop where
  kind : j.kind = k.kind
  outer : j.outer = k.outer
  keyword : j.keyword = k.keyword
  table : j.table = k.table
  alias? : j.alias? = k.alias?
  on : SameSlice s t j.on k.on

section Joins

variable {s t : Text} (same : Text.mask .nested s = Text.mask .nested t) (last : s.getLast?.any isBlank = false)
  (last' : t.getLast?.any isBlank = false)
include same last last'

theorem twin_join {hit : Hit JoinMatch} (place : Ahead (Text.mask .nested t) 0 hit.start)
    (fits : Pattern.join hit.start = some (hit.value, hit.stop)) :
    ∃ j k, (ofText s).join hit = .ok j ∧ (ofText t).join hit = .ok k ∧ TwinJoin s t j k := by
  have place' : Ahead (Text.mask .nested s) 0 hit.start := same.symm ▸ place
  obtain ⟨before, rest, -, start⟩ := place.within
  obtain ⟨words, after, shown, plain, wordsEnd⟩ := passed_wordsEnd (start ▸ fits)
  have sliced {t : Text} (place : Ahead (Text.mask .nested t) 0 hit.start) :
      slice hit.start.offset hit.value.wordsEnd.offset (ofText t).text = .ok words := by
    have top : Top t 0 hit.start :=
      (starts_of_opens opens_join).top (by decide) place (Option.isSome_of_eq_some fits)
    obtain ⟨u, v, rfl, -, -, outside⟩ := top.outside
    rw [start] at outside
    obtain ⟨v, rfl, -⟩ := exists_of_mask_plain ((congrArg Cursor.rest outside).symm.trans shown) plain
    have offset : Text.size before = Text.size u := by
      have offsets := congrArg Cursor.offset outside
      rwa [offset_between, offset_between, size_mask] at offsets
    have cut := slice_append u words v
    rw [List.append_assoc, size_append, ← offset, ← size_append] at cut
    rw [start, wordsEnd]
    exact cut
  obtain ⟨placed, -⟩ := leads_join _ _ _ place fits
  obtain ⟨placed', -⟩ := leads_join _ _ _ place' fits
  unfold Source.join
  dsimp only
  rw [sliced place, sliced place']
  dsimp only [bind, Except.bind]
  cases on : Pattern.on hit.value.table.finish with
  | none => exact ⟨_, _, rfl, rfl, ⟨rfl, rfl, rfl, rfl, rfl, 0, 0, slice_append [] [] s, slice_append [] [] t⟩⟩
  | some found =>
    obtain ⟨_, behind⟩ := found
    obtain ⟨x, y, read, read', twin⟩ := twin_body same starts_joinEnd (by decide) last last'
      (leads_on _ _ _ placed'.table.finish on) (leads_on _ _ _ placed.table.finish on)
    dsimp only
    rw [read, read']
    exact ⟨_, _, rfl, rfl, ⟨rfl, rfl, rfl, rfl, rfl, twin.slices⟩⟩

theorem twin_joins :
    ∃ js ks, (ofText s).joins = .ok js ∧ (ofText t).joins = .ok ks ∧ List.Forall₂ (TwinJoin s t) js ks := by
  have hits : Scan.findAll Pattern.join (Cursor.start (ofText s).mask) = Scan.findAll Pattern.join (Cursor.start (ofText t).mask) :=
    congrArg (fun m => Scan.findAll Pattern.join (Cursor.start m)) same
  have found := findAll_ahead (leads_join (t := t) (n := 0) |>.mono fun _ _ both => both.2.toAhead.mono (Nat.zero_le _))
  unfold joins
  rw [hits]
  have step (h k : Hit JoinMatch)
      (same' : h = k ∧ Ahead (Text.mask .nested t) 0 h.start ∧ Pattern.join h.start = some (h.value, h.stop)) :
      ∃ j j', (ofText s).join h = .ok j ∧ (ofText t).join k = .ok j' ∧ TwinJoin s t j j' := by
    obtain ⟨rfl, place, fits⟩ := same'
    exact twin_join same last last' place fits
  exact exists_mapM_forall₂ step (List.forall₂_same.2 fun hit mem => ⟨rfl, found hit mem⟩)

end Joins

end Source

/-! ## Whole statements -/

/-- The statements agree on all that is read outside literals and parentheses: of the lists only the lengths, and of the
conditions the places where they stand. -/
structure AgreeOutside (s t : Text) (a b : Statement) : Prop where
  kind : a.kind = b.kind
  main : a.main = b.main
  distinct : a.distinct = b.distinct
  limit : a.limit = b.limit
  columns : a.kind ≠ .insert → a.columns.length = b.columns.length
  joins : List.Forall₂ (Source.TwinJoin s t) a.joins b.joins
  groupBy : a.groupBy.length = b.groupBy.length
  orderBy : a.orderBy.length = b.orderBy.length
  assignments : a.assignments.map List.length = b.assignments.map List.length
  condition : SameSlice s t a.condition b.condition
  having : Option.Rel (SameSlice s t) a.having b.having

theorem agreeOutside_empty (s t : Text) : AgreeOutside s t {} {} where
  kind := rfl
  main := rfl
  distinct := rfl
  limit := rfl
  columns _ := rfl
  joins := .nil
  groupBy := rfl
  orderBy := rfl
  assignments := rfl
  condition := ⟨0, 0, slice_append [] [] s, slice_append [] [] t⟩
  having := .none

/-- The main table is read from the mask alone. -/
theorem Source.main_congr {s t : Text} (same : Text.mask .nested s = Text.mask .nested t) :
    (ofText s).main? = (ofText t).main? := by
  have shown (m : Text) : main? ⟨s, m⟩ = main? ⟨t, m⟩ := rfl
  exact (shown _).trans (congrArg (fun m => main? ⟨t, m⟩) same)

/-- The limit is read from the mask alone. -/
theorem Source.limit_congr {s t : Text} (same : Text.mask .nested s = Text.mask .nested t) :
    (ofText s).limit? = (ofText t).limit? := by
  have shown (m : Text) : limit? ⟨s, m⟩ = limit? ⟨t, m⟩ := rfl
  exact (shown _).trans (congrArg (fun m => limit? ⟨t, m⟩) same)

section Agree

variable {s t : Text} {a b : Statement} (reads : ReadsAs s a) (reads' : ReadsAs t b)
  (same : mask .nested s = mask .nested t) (last : s.getLast?.any isBlank = false) (last' : t.getLast?.any isBlank = false)
include reads reads' same

theorem kind_congr : a.kind = b.kind := by
  rw [← reads.kind, ← reads'.kind, ← kindOf_mask s, same, kindOf_mask]

theorem columns_congr : a.distinct = b.distinct ∧ (a.kind ≠ .insert → a.columns.length = b.columns.length) := by
  have read := reads.columns
  have read' := reads'.columns
  rw [← kind_congr reads reads' same] at read'
  cases kind : a.kind with
  | select =>
    rw [kind] at read read'
    obtain ⟨cs, ds, distinct, found, found', lengths⟩ := Source.twin_selectColumns same
    obtain ⟨rfl, rfl⟩ := Prod.mk.inj (Except.ok.inj (read.symm.trans found))
    obtain ⟨rfl, same⟩ := Prod.mk.inj (Except.ok.inj (read'.symm.trans found'))
    exact ⟨same.symm, fun _ => lengths⟩
  | insert =>
    have flat {r : Text} {c : Statement} (read : (Source.ofText r).columns .insert = .ok (c.columns, c.distinct)) :
        c.distinct = false := by
      rw [Source.columns] at read
      cases found : (Source.ofText r).insertColumns with
      | error fault =>
        rw [found] at read
        cases read
      | ok items =>
        rw [found] at read
        exact (Prod.mk.inj (Except.ok.inj read)).2.symm
    rw [kind] at read read'
    exact ⟨(flat read).trans (flat read').symm, fun other => absurd rfl other⟩
  | update | delete | unknown =>
    rw [kind] at read read'
    obtain ⟨empty, single⟩ := Prod.mk.inj (Except.ok.inj read)
    obtain ⟨empty', single'⟩ := Prod.mk.inj (Except.ok.inj read')
    exact ⟨single.symm.trans single', fun _ => by rw [← empty, ← empty']⟩

include last last'

theorem assignments_congr : a.assignments.map List.length = b.assignments.map List.length := by
  obtain ⟨cs, ds, read, read', lengths⟩ := Source.twin_assignments same last last'
  have found := reads.assignments
  have found' := reads'.assignments
  rw [read] at found
  rw [read', ← kind_congr reads reads' same] at found'
  split at found
  · rename_i update
    rw [if_pos update] at found'
    rwa [← Except.ok.inj found, ← Except.ok.inj found']
  · rename_i other
    rw [if_neg other] at found'
    rw [← Except.ok.inj found, ← Except.ok.inj found']

theorem condition_congr : SameSlice s t a.condition b.condition := by
  obtain ⟨x, y, read, read', twins⟩ :=
    Source.twin_clause same starts_whereEnd (by decide) last last' fun t => leads_word (w := "where") (by decide)
  obtain ⟨found, clause, given⟩ := reads.condition
  obtain ⟨found', clause', given'⟩ := reads'.condition
  obtain rfl := Except.ok.inj (clause.symm.trans read)
  obtain rfl := Except.ok.inj (clause'.symm.trans read')
  rw [← given, ← given']
  cases twins with
  | none => exact ⟨0, 0, slice_append [] [] s, slice_append [] [] t⟩
  | some twin => exact twin.slices

theorem having_congr : Option.Rel (SameSlice s t) a.having b.having := by
  obtain ⟨x, y, read, read', twins⟩ :=
    Source.twin_clause same starts_havingEnd (by decide) last last' fun t => leads_word (w := "having") (by decide)
  rw [Except.ok.inj (reads.having.symm.trans read), Except.ok.inj (reads'.having.symm.trans read')]
  cases twins with
  | none => exact .none
  | some twin => exact .some twin.slices

/-- Statements read from texts of the same mask agree on all that shows. -/
theorem ReadsAs.agreeOutside : AgreeOutside s t a b where
  kind := kind_congr reads reads' same
  main := by rw [← reads.main, ← reads'.main, Source.main_congr same]
  distinct := (columns_congr reads reads' same).1
  limit := by rw [← reads.limit, ← reads'.limit, Source.limit_congr same]
  columns := (columns_congr reads reads' same).2
  joins := by
    obtain ⟨js, ks, read, read', twins⟩ := Source.twin_joins same last last'
    rwa [Except.ok.inj (reads.joins.symm.trans read), Except.ok.inj (reads'.joins.symm.trans read')]
  groupBy := by
    obtain ⟨cs, ds, read, read', lengths⟩ := Source.twin_groupBy same last last'
    rwa [Except.ok.inj (reads.groupBy.symm.trans read), Except.ok.inj (reads'.groupBy.symm.trans read')]
  orderBy := by
    obtain ⟨cs, ds, read, read', lengths⟩ := Source.twin_orderBy same last last'
    rwa [Except.ok.inj (reads.orderBy.symm.trans read), Except.ok.inj (reads'.orderBy.symm.trans read')]
  assignments := assignments_congr reads reads' same last last'
  condition := condition_congr reads reads' same last last'
  having := having_congr reads reads' same last last'

end Agree

/-- **Text in literals and parentheses never changes the clauses of a statement.** Two statements of the same mask,
without white space around them and semicolons at their ends, have the same kind, table, limit and joins, as many columns,
terms and assignments, and conditions at the same places. -/
theorem parse_mask_congr {s t : Text} (trimmed : trim s = s) (trimmed' : trim t = t) (ends : s.getLast? ≠ some ';')
    (ends' : t.getLast? ≠ some ';') (same : mask .nested s = mask .nested t) :
    ∃ a b, parse s = .ok a ∧ parse t = .ok b ∧ AgreeOutside s t a b := by
  have tables := Source.main_congr same
  have cases := parse_cases s
  have cases' := parse_cases t
  rw [strip_eq_self trimmed ends] at cases
  rw [strip_eq_self trimmed' ends'] at cases'
  rcases cases with ⟨read, missing⟩ | ⟨a, read, present, reads⟩
  · rcases cases' with ⟨read', -⟩ | ⟨b, -, present', reads'⟩
    · exact ⟨{}, {}, read, read', agreeOutside_empty s t⟩
    · rw [← reads'.main, ← tables, missing] at present'
      cases present'
  · rcases cases' with ⟨-, missing'⟩ | ⟨b, read', -, reads'⟩
    · rw [← reads.main, tables, missing'] at present
      cases present
    · exact ⟨a, b, read, read', reads.agreeOutside reads' same (last_of_trim trimmed) (last_of_trim trimmed')⟩

/-- Clauses, separators and quotes in literals and in parentheses, next to other text of the same length. -/
theorem parse_mask_congr_keywords :
    let s := "SELECT a, f(b, 'x)') FROM t JOIN u ON u.n = ' LIMIT 1 -- ' WHERE x = 'it\\'s' GROUP BY g(1, 2)".toList
    let t := "SELECT a, f(' FROM') FROM t JOIN u ON u.n = 'é; WHERE x ' WHERE x = 'a''b,' GROUP BY g((,),)".toList
    s ≠ t ∧ (trim s = s ∧ trim t = t ∧ s.getLast? ≠ some ';' ∧ t.getLast? ≠ some ';' ∧ mask .nested s = mask .nested t) ∧
      ∃ a b, parse s = .ok a ∧ parse t = .ok b ∧ AgreeOutside s t a b := by
  intro s t
  have trimmed : trim s = s := by decide
  have trimmed' : trim t = t := by decide
  have ends : s.getLast? ≠ some ';' := by decide
  have ends' : t.getLast? ≠ some ';' := by decide
  have same : mask .nested s = mask .nested t := by decide +kernel
  exact ⟨by decide, ⟨trimmed, trimmed', ends, ends', same⟩, parse_mask_congr trimmed trimmed' ends ends' same⟩

end Statement
end QueryCode
