/-
Taking text apart: at a separator, and into the lines of a file.
-/
namespace RoutingReplay.Text

/-- the pieces between the separators; there is always one more piece than there are separators -/
def split (sep : Char) : List Char → List (List Char)
  | [] => [[]]
  | c :: rest =>
    match split sep rest with
    | [] => [[c]]
    | piece :: pieces => if c = sep then [] :: piece :: pieces else (c :: piece) :: pieces

/-- the pieces with the separator between them -/
def join (sep : List Char) : List (List Char) → List Char
  | [] => []
  | [piece] => piece
  | piece :: pieces => piece ++ sep ++ join sep pieces

theorem split_ne_nil (sep : Char) (cs : List Char) : split sep cs ≠ [] := by
  cases cs with
  | nil => simp [split]
  | cons c rest => unfold split; split <;> (try split) <;> simp

/-- Joining the pieces gives the text back. -/
theorem join_split (sep : Char) (cs : List Char) : join [sep] (split sep cs) = cs := by
  induction cs with
  | nil => rfl
  | cons c rest ih =>
    cases hs : split sep rest with
    | nil => exact absurd hs (split_ne_nil sep rest)
    | cons piece pieces =>
      rw [hs] at ih
      simp only [split, hs]
      split
      · rename_i h
        rw [join, ih, h]
        · rfl
        · simp
      · cases pieces with
        | nil => simpa [join] using ih
        | cons p ps => simpa [join] using ih

/-- the lines of a file: each ends in a line feed, which a carriage return may precede; the last may lack its end -/
def lines (cs : List Char) : List (List Char) :=
  let pieces := split '\n' cs
  let ended := pieces.dropLast.map fun line =>
    if line.getLast? = some '\r' then line.dropLast else line
  match pieces.getLast? with
  | some [] | none => ended
  | some rest => ended ++ [rest]

end RoutingReplay.Text
