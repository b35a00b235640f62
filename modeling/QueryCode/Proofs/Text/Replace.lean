import QueryCode.Proofs.Text.Mark

/-!
# Changed hits

Parts may stand for a hit (`StandsFor`) if they have no quotes and parentheses and what is a hit around them stays one.
With such parts in place of every hit a marked text is marked again, its literals are the same, and its mask is the
mask of the text before with the hits changed in the same way. So the search in the changed text finds what was put in
as a hit and nothing else.

Around a place the two texts are the same up to the next hit or the next hidden character (`Alike`). A hit that starts
there cannot reach further: its last character before another hit would be no word character, and inside a hit the
shape has no room for the start of another.
-/

namespace QueryCode
set_option autoImplicit false

namespace Text

variable {S : Text → Prop}

/-! ## The same up to the next hit -/

/-- Behind a character two texts are the same, up to a space in both or up to a hit. -/
inductive Alike (S : Text → Prop) : Option Char → Text → Text → Prop
  | nil (last : Option Char) : Alike S last [] []
  | same {last : Option Char} {c : Char} {x x' : Text} (rest : Alike S (some c) x x') : Alike S last (c :: x) (c :: x')
  | gap {last : Option Char} {x x' : Text} : Alike S last (' ' :: x) (' ' :: x')
  | stop {last : Option Char} {x x' : Text} (edge : last.any isWord = false) (head : x.head?.any isWord = true)
      (blocked : ∀ u v after, IsJoint S u v → WordEnds v after → x' ≠ v ++ after) : Alike S last x x'

namespace Alike

variable {last : Option Char} {x x' : Text}

theorem head (alike : Alike S last x x') (edge : x.head?.any isWord = false) : x'.head?.any isWord = false := by
  cases alike with
  | nil => rfl
  | same => exact edge
  | gap => exact edge
  | stop _ head => rw [head] at edge; cases edge

theorem append {u : Text} (alike : Alike S (u.getLast?.or last) x x') : Alike S last (u ++ x) (u ++ x') := by
  induction u generalizing last with
  | nil => exact alike
  | cons c u ih =>
    rw [getLast?_cons_or] at alike
    exact .same (ih alike)

/-- A text of the shape that has started goes on in both texts. -/
theorem exists_after (shape : IsShape S) (alike : Alike S last x x') {u v after : Text} (holds : S (u ++ v)) (filled : u ≠ [])
    (lasts : u.getLast? = last) (split : x' = v ++ after) (ends : WordEnds (u ++ v) after) :
    ∃ after', x = v ++ after' ∧ WordEnds (u ++ v) after' := by
  induction alike generalizing u v with
  | nil =>
    obtain ⟨rfl, rfl⟩ := List.append_eq_nil_iff.1 split.symm
    exact ⟨[], rfl, ends⟩
  | @same last c x x' rest ih =>
    cases v with
    | nil =>
      subst split
      exact ⟨c :: x, rfl, ends⟩
    | cons d v =>
      obtain ⟨rfl, below⟩ := List.cons.inj split
      rw [List.append_cons] at holds ends ⊢
      obtain ⟨after', rfl, ends'⟩ := ih holds (by simp) (by simp) below ends
      exact ⟨after', rfl, ends'⟩
  | @gap last x x' =>
    cases v with
    | nil => exact ⟨' ' :: x, rfl, fun _ => (by decide : isWord ' ' = false)⟩
    | cons d v =>
      obtain ⟨rfl, -⟩ := List.cons.inj split
      exact absurd rfl (shape.clean holds ' ' (by simp)).2
  | @stop last x x' edge _ blocked =>
    subst lasts
    by_cases done : v = []
    · subst done
      refine ⟨x, rfl, fun word => ?_⟩
      rw [List.append_nil, edge] at word
      cases word
    · exact absurd split (blocked u v after ⟨holds, filled, done, edge⟩ (ends.of_append done))

/-- Where no hit starts in the one text, none starts in the other. -/
theorem not_isHit (shape : IsShape S) {last' : Option Char} {c : Char} (alike : Alike S (some c) x x')
    (lasts : isWord c = true → last'.any isWord = last.any isWord)
    (free : ∀ found after, c :: x = found ++ after → ¬ IsHit S last found after) :
    ∀ found after, c :: x' = found ++ after → ¬ IsHit S last' found after := by
  intro found after split hit
  obtain ⟨d, v, rfl⟩ := List.exists_cons_of_ne_nil (shape.ne_nil hit.shape)
  obtain ⟨rfl, below⟩ := List.cons.inj split
  obtain ⟨after', rfl, ends⟩ :=
    alike.exists_after shape (u := [c]) hit.shape (by simp) rfl below hit.ends
  have word : isWord c = true := shape.head hit.shape
  exact free (c :: v) after' rfl ⟨hit.shape, by rw [← lasts word, hit.starts], ends⟩

end Alike

/-! ## Parts in place of a hit -/

theorem any_of_or {a b : Option Char} (unlisted : (a.or b).any isWord = false) : a.any isWord = false := by
  cases a with
  | none => rfl
  | some c => exact unlisted

/-- The parts may stand where the hit stands: they belong to no literal, no hit reaches into them, and they are marked. -/
structure StandsFor (S : Text → Prop) (t : Text) (parts : List Part) : Prop where
  filled : source parts ≠ []
  plain : Plain (source parts)
  last : t.getLast?.any isWord = false → (source parts).getLast?.any isWord = false
  blocked : ∀ u v after rest, IsJoint S u v → WordEnds v after → source parts ++ rest ≠ v ++ after
  marked : ∀ {depth : Nat} {last : Option Char} {more : List Part}, last.any isWord = false →
    WordEnds t (Walk.faces ⟨.plain, depth⟩ (source more)) → Marked S ⟨.plain, depth⟩ (source parts).getLast? more →
    Marked S ⟨.plain, depth⟩ last (parts ++ more)

/-- Another text of the shape may stand for a hit. -/
theorem standsFor_hit (shape : IsShape S) {t r : Text} (holds : S r)
    (last : r.getLast?.any isWord = t.getLast?.any isWord) : StandsFor S t [.hit r] := by
  have whole : source [.hit r] = r := List.append_nil r
  refine ⟨?_, ?_, ?_, ?_, ?_⟩
  · rw [whole]
    exact shape.ne_nil holds
  · rw [whole]
    exact shape.plain holds
  · rw [whole, last]
    exact id
  · intro u v after rest joint ends same
    rw [whole] at same
    exact shape.joint joint ends holds same.symm
  · intro depth before more starts ends marked
    rw [whole] at marked
    refine .hit ⟨holds, starts, ?_⟩ marked
    rwa [WordEnds, last]

/-- Text in which no hit starts may stand for a hit. -/
theorem standsFor_text {t r : Text} (filled : r ≠ []) (plain : Plain r) (last : r.getLast?.any isWord = false)
    (blocked : ∀ u v after rest, IsJoint S u v → r ++ rest ≠ v ++ after)
    (free : ∀ u v found after rest, r = u ++ v → u.getLast?.any isWord = false → S found → v ≠ [] →
      v ++ rest ≠ found ++ after) : StandsFor S t (r.map .plain) := by
  refine ⟨?_, ?_, ?_, ?_, ?_⟩
  · rwa [source_map_plain]
  · rwa [source_map_plain]
  · rw [source_map_plain]
    exact fun _ => last
  · rw [source_map_plain]
    exact fun u v after rest joint _ => blocked u v after rest joint
  · intro depth before more starts _ marked
    rw [source_map_plain] at marked
    -- the rest of the text is marked behind each of its beginnings
    have rests (u v : Text) (split : r = u ++ v) :
        Marked S ⟨.plain, depth⟩ (u.getLast?.or before) (v.map .plain ++ more) := by
      induction v generalizing u with
      | nil =>
        rw [List.append_nil] at split
        subst split
        rw [List.getLast?_eq_some_getLast filled] at marked ⊢
        exact marked
      | cons c v ih =>
        have clean : Plain (c :: v) := (plain_append.1 (split ▸ plain)).2
        have step := Walk.step_plain (plain_cons.1 clean).1 depth (source (v.map .plain ++ more)).head?
        rw [List.map_cons, List.cons_append]
        refine .plain (fun found after shown hit => ?_) ?_
        · rw [source_append, source_map_plain, ← List.cons_append, Walk.faces_plain_append clean] at shown
          exact free u (c :: v) found after _ split (any_of_or hit.starts) hit.shape (by simp) shown
        · rw [step]
          have later := ih (u ++ [c]) (by rw [split, List.append_assoc]; rfl)
          rwa [List.getLast?_concat] at later
    exact rests [] r rfl

/-- Text without quotes does not start with one. -/
theorem Plain.head_ne {u : Text} (plain : Plain u) (filled : u ≠ []) {q : Char} (quote : isQuote q = true) (v : Text) :
    (u ++ v).head? ≠ some q := by
  obtain ⟨c, u, rfl⟩ := List.exists_cons_of_ne_nil filled
  rintro ⟨⟩
  rw [isQuote_of_isMark (plain_cons.1 plain).1] at quote
  cases quote

/-! ## The exchange of hits -/

section Replace

variable (shape : IsShape S) {g : Text → List Part} (stands : ∀ t, S t → StandsFor S t (g t)) {w : Walk}
  {last : Option Char} {parts : List Part}

include shape stands

/-- The exchange of hits brings no quote to the front. -/
theorem Marked.head_replace (marked : Marked S w last parts) (q : Char) (quote : isQuote q = true) :
    (source parts).head? = some q ↔ (source (replace g parts)).head? = some q := by
  cases marked with
  | nil => exact Iff.rfl
  | plain => exact Iff.rfl
  | hit fits =>
    have stood := stands _ fits.shape
    rw [replace, source_append, source_hit]
    exact iff_of_false ((shape.plain fits.shape).head_ne (shape.ne_nil fits.shape) quote _)
      (stood.plain.head_ne stood.filled quote _)

theorem Marked.alike_replace (sound : w.Sound) (marked : Marked S w last parts) :
    Alike S last (w.faces (source parts)) (w.faces (source (replace g parts))) := by
  induction marked with
  | nil w last => exact .nil last
  | @plain w last c parts _ rest ih =>
    rw [replace, source_plain, source_plain, Walk.faces_cons, Walk.faces_cons,
      ← Walk.step_alike sound (rest.head_replace shape stands)]
    exact .same (ih (sound.step c _))
  | @hit depth last t parts fits _ _ =>
    have stood := stands t fits.shape
    rw [replace, source_hit, source_append, Walk.faces_plain_append (shape.plain fits.shape),
      Walk.faces_plain_append stood.plain]
    exact .stop fits.starts (shape.head_append fits.shape _) fun u v after joint ends =>
      stood.blocked u v after _ joint ends

/-- **With parts that stand for them in place of its hits, a marked text is marked.** The character before it may be
another one, unless a hit could start behind it. -/
theorem Marked.replace (sound : w.Sound) (marked : Marked S w last parts) {last' : Option Char}
    (lasts : (w.faces (source parts)).head?.any isWord = true → last'.any isWord = last.any isWord) :
    Marked S w last' (replace g parts) := by
  induction marked generalizing last' with
  | nil w last => exact .nil w last'
  | @plain w last c parts free rest ih =>
    have step := Walk.step_alike sound (c := c) (rest.head_replace shape stands)
    have alike := rest.alike_replace shape stands (sound.step c _)
    refine .plain ?_ ?_
    · rw [Walk.faces_cons, ← step]
      exact alike.not_isHit shape lasts free
    · rw [← step]
      exact ih (sound.step c _) fun _ => rfl
  | @hit depth last t parts fits rest ih =>
    have stood := stands t fits.shape
    have starts : last'.any isWord = false := by
      have head : (Walk.faces ⟨.plain, depth⟩ (t ++ source parts)).head?.any isWord = true := by
        rw [Walk.faces_plain_append (shape.plain fits.shape)]
        exact shape.head_append fits.shape _
      rw [lasts head, fits.starts]
    refine stood.marked starts (fun word => (rest.alike_replace shape stands sound).head (fits.ends word)) (ih sound fun word => ?_)
    -- a word character follows only where the hit ends with none, and then its parts end with none
    have ends : t.getLast?.any isWord = false := by
      by_contra word'
      rw [fits.ends (by simpa using word')] at word
      cases word
    rw [ends, stood.last ends]

end Replace

/-! ## Literals -/

/-- The rest of the literal in which the walk stands, and the literals behind it. -/
def Walk.literals (w : Walk) : Text → Text × List Text
  | [] => ([], [])
  | c :: rest =>
    let (inside, later) := literals (w.step c rest.head?).2 rest
    if w.mode = .plain then
      if isQuote c then ([], (c :: inside) :: later) else ([], later)
    else (c :: inside, later)

/-- The quoted literals of a text with their quotes, in order. One that is not closed goes on to the end. -/
def quotations (t : Text) : List Text := (Walk.literals {} t).2

example : quotations "a = 'it''s' AND b = \"x" = ["'it''s'".toList, "\"x".toList] := by decide

/-- Text without quotes has no part in the literals. -/
theorem Walk.literals_plain_append {u : Text} (plain : Plain u) (depth : Nat) (t : Text) :
    literals ⟨.plain, depth⟩ (u ++ t) = ([], (literals ⟨.plain, depth⟩ t).2) := by
  induction u with
  | nil =>
    cases t with
    | nil => rfl
    | cons c t =>
      rw [List.nil_append, literals]
      dsimp only
      rw [if_pos rfl]
      split <;> rfl
  | cons c u ih =>
    rw [plain_cons] at plain
    rw [List.cons_append, literals, step_plain plain.1]
    dsimp only
    rw [if_pos rfl, isQuote_of_isMark plain.1, ih plain.2]
    rfl

/-- **The exchange of hits leaves the literals as they are.** -/
theorem Marked.literals_replace (shape : IsShape S) {g : Text → List Part} (stands : ∀ t, S t → StandsFor S t (g t))
    {w : Walk} {last : Option Char} {parts : List Part} (sound : w.Sound) (marked : Marked S w last parts) :
    w.literals (source (Text.replace g parts)) = w.literals (source parts) := by
  induction marked with
  | nil => rfl
  | @plain w last c parts _ rest ih =>
    rw [Text.replace, source_plain, source_plain, Walk.literals, Walk.literals,
      ← Walk.step_alike sound (rest.head_replace shape stands), ih (sound.step c _)]
  | @hit depth last t parts fits _ ih =>
    rw [Text.replace, source_hit, source_append, Walk.literals_plain_append (stands t fits.shape).plain,
      Walk.literals_plain_append (shape.plain fits.shape), ih sound]

/-! ## The mask of a marked text -/

/-- The parts as the mask shows them, walked from a given state. -/
def veil : Walk → List Part → List Part
  | _, [] => []
  | w, .plain c :: parts =>
    ((w.step c (source parts).head?).1.shown .quotes).map .plain ++ veil (w.step c (source parts).head?).2 parts
  | w, .hit t :: parts => .hit t :: veil w parts

theorem hits_append (parts more : List Part) : hits (parts ++ more) = hits parts ++ hits more := List.filterMap_append

theorem hits_map_plain (t : Text) : hits (t.map .plain) = [] := by
  induction t with
  | nil => rfl
  | cons c t ih => exact ih

theorem hits_veil (w : Walk) (parts : List Part) : hits (veil w parts) = hits parts := by
  induction parts generalizing w with
  | nil => rfl
  | cons part parts ih =>
    cases part with
    | plain c =>
      rw [veil, hits_append, hits_map_plain, ih]
      rfl
    | hit t => exact congrArg (t :: ·) (ih w)

theorem Cell.face_space {cell : Cell} (space : cell.char = ' ') : cell.face .quotes = ' ' := by
  rw [Cell.face, space, ite_self]

/-- A hidden character is shown as one space or more, for its bytes. -/
theorem Cell.shown_of_hidden {cell : Cell} (hidden : cell.hidden .quotes = true) :
    ∃ n, cell.char.utf8Size = n + 1 ∧ cell.shown .quotes = List.replicate (n + 1) ' ' := by
  obtain ⟨n, bytes⟩ := Nat.exists_eq_succ_of_ne_zero (Nat.ne_of_gt cell.char.utf8Size_pos)
  refine ⟨n, bytes, ?_⟩
  rw [Cell.shown, if_pos hidden, bytes]

theorem Cell.shown_of_seen {cell : Cell} (seen : cell.hidden .quotes = false) : cell.shown .quotes = [cell.char] := by
  rw [Cell.shown, seen, if_neg Bool.false_ne_true]

section Veil

variable (shape : IsShape S) {w : Walk} {last : Option Char} {parts : List Part}
include shape

/-- **The mask of a text with its hits exchanged is the mask of the text with its hits exchanged.** -/
theorem Marked.source_replace_veil {g : Text → List Part} (stands : ∀ t, S t → StandsFor S t (g t)) (sound : w.Sound)
    (marked : Marked S w last parts) :
    source (Text.replace g (veil w parts)) = (w.cells (source (Text.replace g parts))).flatMap (Cell.shown .quotes) := by
  induction marked with
  | nil => rfl
  | @plain w last c parts _ rest ih =>
    rw [veil, replace_append, replace_map_plain, source_append, source_map_plain, Text.replace, source_plain, Walk.cells,
      List.flatMap_cons, ← Walk.step_alike sound (rest.head_replace shape stands), ih (sound.step c _)]
  | @hit depth last t parts fits _ ih =>
    rw [veil, Text.replace, Text.replace, source_append, source_append, ih sound,
      Walk.cells_plain_append (stands t fits.shape).plain, List.flatMap_append, Walk.flatMap_shown_plainRow]

theorem Marked.source_veil (sound : w.Sound) (marked : Marked S w last parts) :
    source (veil w parts) = (w.cells (source parts)).flatMap (Cell.shown .quotes) := by
  have same := marked.source_replace_veil shape (g := fun t => [.hit t]) (fun t holds => standsFor_hit shape holds rfl) sound
  rwa [replace_hit, replace_hit] at same

/-- Where a character shows, the walk over the mask goes the way of the walk over the text. -/
theorem Marked.step_veil {c : Char} (sound : w.Sound) (seen : (w.step c (source parts).head?).1.hidden .quotes = false)
    (rest : Marked S (w.step c (source parts).head?).2 last parts) :
    (w.shadow .quotes).step c (source (veil (w.step c (source parts).head?).2 parts)).head? =
      ((w.step c (source parts).head?).1, (w.step c (source parts).head?).2.shadow .quotes) := by
  refine Walk.step_shadow sound seen fun q quote single => ?_
  rw [rest.source_veil shape (sound.step c _)]
  exact Walk.head_shown_ne quote single

theorem Marked.alike_veil (sound : w.Sound) (marked : Marked S w last parts) :
    Alike S last (w.faces (source parts)) ((w.shadow .quotes).faces (source (veil w parts))) := by
  induction marked with
  | nil w last => exact .nil last
  | @plain w last c parts _ rest ih =>
    rw [veil, source_append, source_map_plain, source_plain, Walk.faces_cons]
    cases seen : (w.step c (source parts).head?).1.hidden .quotes with
    | true =>
      -- a hidden character is a space in both
      obtain ⟨n, _, shown⟩ := Cell.shown_of_hidden seen
      rw [Cell.face, if_pos seen, shown, List.replicate_succ, List.cons_append, Walk.faces_cons,
        Cell.face_space (Walk.step_char _ _ _)]
      exact .gap
    | false =>
      rw [Cell.shown_of_seen seen, Walk.step_char, List.singleton_append, Walk.faces_cons, rest.step_veil shape sound seen]
      exact .same (ih (sound.step c _))
  | @hit depth last t parts fits _ ih =>
    have plain := shape.plain fits.shape
    rw [veil, source_hit, source_hit, Walk.faces_plain_append plain]
    have shadow : Walk.shadow .quotes ⟨.plain, depth⟩ = ⟨.plain, depth⟩ := rfl
    rw [shadow, Walk.faces_plain_append plain]
    refine .append ?_
    rw [List.getLast?_eq_some_getLast (shape.ne_nil fits.shape)] at ih ⊢
    exact ih sound

/-- No hit starts at a space of a mask. -/
theorem marked_space (sound : w.Sound) (marked : Marked S (w.shadow .quotes) (some ' ') parts) :
    Marked S (w.shadow .quotes) last (.plain ' ' :: parts) := by
  refine .plain (fun found after split hit => ?_) ?_
  · rw [Walk.faces_cons, Cell.face_space (Walk.step_char _ _ _)] at split
    have word := shape.head hit.shape
    obtain ⟨c, more, rfl⟩ := List.exists_cons_of_ne_nil (shape.ne_nil hit.shape)
    obtain ⟨rfl, -⟩ := List.cons.inj split
    exact absurd word (by decide : isWord ' ' ≠ true)
  · rwa [Walk.step_space sound, Cell.face_space (Walk.step_char _ _ _)]

theorem marked_spaces (sound : w.Sound) (marked : Marked S (w.shadow .quotes) (some ' ') parts) (n : Nat) :
    Marked S (w.shadow .quotes) last ((List.replicate (n + 1) ' ').map .plain ++ parts) := by
  induction n generalizing last with
  | zero => exact marked_space shape sound marked
  | succ n ih => exact marked_space shape sound ih

/-- **The mask of a marked text is marked**, with the same hits. -/
theorem Marked.veil (sound : w.Sound) (marked : Marked S w last parts) :
    Marked S (w.shadow .quotes) last (veil w parts) := by
  induction marked with
  | nil w last => exact .nil _ last
  | @plain w last c parts free rest ih =>
    have later := ih (sound.step c _)
    rw [Text.veil]
    cases seen : (w.step c (source parts).head?).1.hidden .quotes with
    | true =>
      obtain ⟨n, _, shown⟩ := Cell.shown_of_hidden seen
      rw [Walk.shadow_of_hidden seen, Cell.face, if_pos seen] at later
      rw [shown]
      exact marked_spaces shape sound later n
    | false =>
      have step := rest.step_veil shape sound seen
      rw [Cell.shown_of_seen seen, Walk.step_char, List.map_singleton, List.singleton_append]
      refine .plain ?_ ?_
      · rw [Walk.faces_cons, step]
        exact (rest.alike_veil shape (sound.step c _)).not_isHit shape (fun _ => rfl) free
      · rw [step]
        exact later
  | hit fits rest ih =>
    exact .hit ⟨fits.shape, fits.starts, fun word => (rest.alike_veil shape sound).head (fits.ends word)⟩ (ih sound)

/-- **A marked text has no hits but those that are marked**, also where one might overlap another. -/
theorem Marked.mem_hits (marked : Marked S w last parts) {lead found after : Text}
    (split : w.faces (source parts) = lead ++ (found ++ after)) (hit : IsHit S (lead.getLast?.or last) found after) :
    found ∈ hits parts := by
  induction marked generalizing lead with
  | nil =>
    have empty := (List.append_eq_nil_iff.1 (List.append_eq_nil_iff.1 split.symm).2).1
    exact absurd empty (shape.ne_nil hit.shape)
  | @plain w last c parts free rest ih =>
    cases lead with
    | nil => exact absurd hit (free found after split)
    | cons d lead =>
      rw [source_plain, Walk.faces_cons] at split
      obtain ⟨same, below⟩ := List.cons.inj split
      refine ih below ⟨hit.shape, ?_, hit.ends⟩
      have starts := hit.starts
      rwa [getLast?_cons_or, ← same] at starts
  | @hit depth last t parts fits rest ih =>
    rw [source_hit, Walk.faces_plain_append (shape.plain fits.shape)] at split
    have filled := shape.ne_nil fits.shape
    have behind {more : Text} (first : lead = t ++ more)
        (below : Walk.faces ⟨.plain, depth⟩ (source parts) = more ++ (found ++ after)) : found ∈ t :: hits parts := by
      refine List.mem_cons_of_mem t (ih below ⟨hit.shape, ?_, hit.ends⟩)
      have starts := hit.starts
      rwa [first, List.getLast?_append, Option.or_assoc, List.getLast?_eq_some_getLast filled, Option.some_or,
        ← List.getLast?_eq_some_getLast filled] at starts
    rcases List.append_eq_append_iff.1 split with ⟨more, first, below⟩ | ⟨v, first, below⟩
    · exact behind first below
    · by_cases inside : lead = []
      · -- where the hit starts
        subst inside
        exact List.mem_cons.2 (.inl (shape.unique hit fits (by rw [below, first]; rfl)))
      · by_cases spent : v = []
        · subst spent
          have ends : Walk.faces ⟨.plain, depth⟩ (source parts) = [] ++ (found ++ after) := below.symm
          exact behind (by rw [first, List.append_nil, List.append_nil]) ends
        · -- inside it
          subst first
          have joint : IsJoint S lead v := ⟨fits.shape, inside, spent, any_of_or hit.starts⟩
          exact absurd below.symm (shape.joint joint (fits.ends.of_append spent) hit.shape)

end Veil

/-- A mask shows itself. -/
theorem faces_mask (t : Text) : Walk.faces {} (mask .quotes t) = mask .quotes t := by
  have rows (row : List Cell) (same : row.flatMap (Cell.shown .quotes) = row.map Cell.char) :
      row.map (Cell.face .quotes) = row.map Cell.char := by
    induction row with
    | nil => rfl
    | cons cell row ih =>
      rw [List.flatMap_cons, List.map_cons] at same
      rw [List.map_cons, List.map_cons]
      cases seen : cell.hidden .quotes with
      | true =>
        obtain ⟨n, bytes, shown⟩ := Cell.shown_of_hidden seen
        rw [shown, List.replicate_succ, List.cons_append] at same
        obtain ⟨space, rest⟩ := List.cons.inj same
        -- a space has one byte
        obtain rfl : n = 0 := by
          rw [← space] at bytes
          exact Nat.succ.inj bytes.symm
        rw [Cell.face, if_pos seen, space, ih rest]
      | false =>
        rw [Cell.shown_of_seen seen] at same
        rw [Cell.face, seen, if_neg Bool.false_ne_true, ih (List.cons.inj same).2]
  have whole := mask_mask .quotes .quotes t
  have chars : (cells (mask .quotes t)).map Cell.char = mask .quotes t := Walk.map_char_cells {} _
  exact (rows _ (whole.trans chars.symm)).trans chars

/-! ## Changes by a pattern -/

theorem hits_replace (g : Text → List Part) (parts : List Part) :
    hits (replace g parts) = (hits parts).flatMap fun t => hits (g t) := by
  induction parts with
  | nil => rfl
  | cons part parts ih =>
    cases part with
    | plain c => exact ih
    | hit t =>
      rw [replace, hits_append, ih]
      rfl

/-- Hits that are changed into themselves leave the text as it is. -/
theorem mapHits_eq_self {f : Text → Text} {parts : List Part} (fixed : ∀ t ∈ hits parts, f t = t) :
    mapHits f parts = source parts := by
  have same := mapHits_eq_source (f := f) (g := fun t => [.hit t]) fun t mem =>
    (List.append_nil t).trans (fixed t mem).symm
  rwa [replace_hit] at same

theorem Marked.shape_of_mem {w : Walk} {last : Option Char} {parts : List Part} (marked : Marked S w last parts) {t : Text}
    (mem : t ∈ hits parts) : S t := by
  induction marked with
  | nil => cases mem
  | plain _ _ ih => exact ih mem
  | hit fits _ ih =>
    rcases List.mem_cons.1 mem with rfl | later
    · exact fits.shape
    · exact ih later

/-- A hit stands outside literals. -/
theorem Marked.exists_row {w : Walk} {last : Option Char} {parts : List Part} (shape : IsShape S)
    (marked : Marked S w last parts) {t : Text} (mem : t ∈ hits parts) :
    ∃ lead row tail, w.cells (source parts) = lead ++ (row ++ tail) ∧ row.map Cell.char = t ∧
      ∀ cell ∈ row, cell.quoted = false := by
  induction marked with
  | nil => cases mem
  | @plain w last c parts _ _ ih =>
    obtain ⟨lead, row, tail, split, chars, seen⟩ := ih mem
    exact ⟨(w.step c (source parts).head?).1 :: lead, row, tail, by rw [source_plain, Walk.cells, split]; rfl, chars, seen⟩
  | @hit depth last u parts fits _ ih =>
    have rows : Walk.cells ⟨.plain, depth⟩ (source (.hit u :: parts)) =
        Walk.plainRow depth u ++ Walk.cells ⟨.plain, depth⟩ (source parts) :=
      Walk.cells_plain_append (shape.plain fits.shape) depth _
    rcases List.mem_cons.1 mem with rfl | later
    · refine ⟨[], _, _, rows, Walk.map_char_plainRow depth t, ?_⟩
      exact List.forall_mem_map.2 fun c _ => rfl
    · obtain ⟨lead, row, tail, split, chars, seen⟩ := ih later
      exact ⟨_, row, tail, by rw [rows, split, ← List.append_assoc], chars, seen⟩

section Pattern

variable {p : Scan Unit} (finds : Finds p S) (shape : IsShape S)
include finds shape

theorem mark_mask (t : Text) : mark p (mask .quotes t) = veil {} (mark p t) := by
  have marked := marked_mark finds shape t
  have whole := marked.source_veil shape (Walk.sound_start 0)
  rw [source_mark] at whole
  have veiled : Marked S {} none (veil {} (mark p t)) := marked.veil shape (Walk.sound_start 0)
  rw [← mark_source finds shape veiled, whole]
  rfl

/-- **The mask shows a hit only where the search has found it.** -/
theorem mem_hits_of_mask {t lead found after : Text} (split : mask .quotes t = lead ++ (found ++ after))
    (hit : IsHit S lead.getLast? found after) : found ∈ hits (mark p t) := by
  have marked := marked_mark finds shape (mask .quotes t)
  have shown : Walk.faces {} (source (mark p (mask .quotes t))) = lead ++ (found ++ after) := by
    rw [source_mark, faces_mask, split]
  have mem := marked.mem_hits shape shown (by rwa [Option.or_none])
  rwa [mark_mask finds shape, hits_veil] at mem

/-- Where the search finds nothing, the pattern fits nowhere in the mask. -/
theorem occurs_mask_eq_false {t : Text} (empty : hits (mark p t) = []) : p.occurs (mask .quotes t) = false := by
  by_contra occurs
  rw [Bool.not_eq_false, Scan.occurs, Cursor.start_eq, Scan.find_isSome_iff] at occurs
  obtain ⟨lead, tail, split, fits⟩ := occurs
  obtain ⟨⟨_, stop⟩, found⟩ := Option.isSome_iff_exists.1 fits
  obtain ⟨text, rfl, hit⟩ := (finds _ _ _ _).1 ⟨stop, found, rfl⟩
  have mem := mem_hits_of_mask finds shape split hit
  rw [empty] at mem
  cases mem

variable {f : Text → Text} {g : Text → List Part} (same : ∀ t, S t → source (g t) = f t)
include same

theorem mapHits_mark_eq (t : Text) : mapHits f (mark p t) = source (replace g (mark p t)) :=
  mapHits_eq_source fun found mem => same found ((marked_mark finds shape t).shape_of_mem mem)

variable (stands : ∀ t, S t → StandsFor S t (g t))
include stands

/-- **The search in the changed text finds the changed parts.** -/
theorem mark_mapHits (t : Text) : mark p (mapHits f (mark p t)) = replace g (mark p t) := by
  rw [mapHits_mark_eq finds shape same]
  exact mark_source finds shape
    ((marked_mark finds shape t).replace shape stands (Walk.sound_start 0) fun _ => rfl)

/-- **The mask of the changed text is the changed mask.** -/
theorem mask_mapHits (t : Text) : mask .quotes (mapHits f (mark p t)) = mapHits f (mark p (mask .quotes t)) := by
  rw [mapHits_mark_eq finds shape same, mapHits_mark_eq finds shape same, mark_mask finds shape,
    (marked_mark finds shape t).source_replace_veil shape stands (Walk.sound_start 0)]
  rfl

/-- **The changed text has the literals of the text.** -/
theorem quotations_mapHits (t : Text) : quotations (mapHits f (mark p t)) = quotations t := by
  rw [mapHits_mark_eq finds shape same, quotations,
    (marked_mark finds shape t).literals_replace shape stands (Walk.sound_start 0), source_mark]
  rfl

end Pattern

end Text
end QueryCode
