/-!
# Texts cut at a separator

A text is a list of characters, or of other units. It is cut at every occurrence of a separator.
There is always at least one piece, so the pieces are a first one and those after it. Joining the
pieces gives the text back, and no piece holds the separator.
-/
namespace Trajectory.Text

variable {α : Type} [DecidableEq α]

/-- The piece before the first separator, and the pieces after it. -/
def cut (separator : α) : List α → List α × List (List α)
  | [] => ([], [])
  | c :: rest =>
    let (first, others) := cut separator rest
    if c = separator then ([], first :: others) else (c :: first, others)

/-- All pieces of a text, in order. -/
def pieces (separator : α) (text : List α) : List (List α) :=
  let (first, others) := cut separator text
  first :: others

/-- The pieces with one separator between neighbours. -/
def join (separator : α) : List (List α) → List α
  | [] => []
  | [piece] => piece
  | piece :: next :: others => piece ++ separator :: join separator (next :: others)

/-- Joining the pieces of a text gives the text back. -/
theorem join_pieces (separator : α) (text : List α) :
    join separator (pieces separator text) = text := by
  induction text with
  | nil => rfl
  | cons c rest ih =>
    simp only [pieces, cut] at ih ⊢
    split
    · next same => simp [join, ih, same]
    · cases others : (cut separator rest).2 with
      | nil => simpa [others, join] using ih
      | cons next more => simpa [others, join] using ih

/-- No piece holds the separator. -/
theorem not_mem_of_mem_pieces {separator : α} {text piece : List α}
    (found : piece ∈ pieces separator text) : separator ∉ piece := by
  induction text generalizing piece with
  | nil => simp_all [pieces, cut]
  | cons c rest ih =>
    simp only [pieces, cut] at ih found
    split at found
    · rcases List.mem_cons.mp found with rfl | later
      · simp
      · exact ih later
    · next different =>
      rcases List.mem_cons.mp found with rfl | later
      · simpa [Ne.symm different] using ih (List.mem_cons_self ..)
      · exact ih (List.mem_cons_of_mem _ later)

/-- There is always a piece. -/
theorem pieces_ne_nil (separator : α) (text : List α) : pieces separator text ≠ [] := by
  simp [pieces]

/-- A text without the separator is one piece. -/
theorem pieces_of_not_mem {separator : α} {text : List α} (absent : separator ∉ text) :
    pieces separator text = [text] := by
  induction text with
  | nil => rfl
  | cons c rest ih =>
    obtain ⟨different, later⟩ := not_or.mp (mt List.mem_cons.mpr absent)
    have single := ih later
    simp only [pieces, List.cons.injEq] at single
    simp [pieces, cut, single.1, single.2, Ne.symm different]

/-- A separator parts the pieces before it from those after it. -/
theorem pieces_append (separator : α) (left right : List α) :
    pieces separator (left ++ separator :: right) =
      pieces separator left ++ pieces separator right := by
  induction left with
  | nil => simp [pieces, cut]
  | cons c rest ih =>
    simp only [pieces, List.cons_append, List.cons.injEq] at ih
    by_cases same : c = separator
    · simp [pieces, cut, same, ih.1, ih.2]
    · simp [pieces, cut, same, ih.1, ih.2]

omit [DecidableEq α] in
/-- Pieces joined in two parts have a separator between the parts. -/
theorem join_append {separator : α} {left right : List (List α)} (some_left : left ≠ [])
    (some_right : right ≠ []) :
    join separator (left ++ right) = join separator left ++ separator :: join separator right := by
  induction left with
  | nil => contradiction
  | cons piece rest ih =>
    cases rest with
    | nil =>
      cases right with
      | nil => contradiction
      | cons next others => rfl
    | cons next others =>
      have tail := ih (List.cons_ne_nil _ _)
      simp only [List.cons_append] at tail
      simp only [List.cons_append, join, tail, List.append_assoc]

/-- Pieces without the separator are the pieces of what joining them gives. -/
theorem pieces_join {separator : α} {parts : List (List α)} (some_part : parts ≠ [])
    (clean : ∀ piece ∈ parts, separator ∉ piece) :
    pieces separator (join separator parts) = parts := by
  induction parts with
  | nil => contradiction
  | cons piece rest ih =>
    have first := pieces_of_not_mem (clean piece (List.mem_cons_self ..))
    cases rest with
    | nil => exact first
    | cons next others =>
      have tail := ih (List.cons_ne_nil _ _)
        fun piece found => clean piece (List.mem_cons_of_mem _ found)
      rw [join, pieces_append, first, tail, List.singleton_append]

/-- What is added to a text without the separator goes to its last piece. -/
theorem pieces_append_of_not_mem {separator : α} {text last suffix : List α}
    {outer : List (List α)} (parts : pieces separator text = outer ++ [last])
    (absent : separator ∉ suffix) :
    pieces separator (text ++ suffix) = outer ++ [last ++ suffix] := by
  have clean : ∀ piece ∈ outer ++ [last], separator ∉ piece :=
    fun piece found => not_mem_of_mem_pieces (parts ▸ found)
  have longer : text ++ suffix = join separator (outer ++ [last ++ suffix]) := by
    rw [← join_pieces separator text, parts]
    by_cases single : outer = []
    · simp [single, join]
    · rw [join_append single (List.cons_ne_nil _ _), join_append single (List.cons_ne_nil _ _),
        List.append_assoc]
      rfl
  rw [longer]
  refine pieces_join (by simp) fun piece found => ?_
  cases List.mem_append.mp found with
  | inl before => exact clean piece (List.mem_append_left _ before)
  | inr added =>
    rw [List.mem_singleton.mp added, List.mem_append]
    rintro (inside | outside)
    · exact clean last (List.mem_append_right _ (List.mem_singleton_self _)) inside
    · exact absent outside

end Trajectory.Text
