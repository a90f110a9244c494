namespace LineLogger.Text

/-- Cuts a text at its line feeds. There is always a last segment, which may be empty. -/
def segments : List Char → List (List Char)
  | [] => [[]]
  | c :: r =>
    if c = '\n' then [] :: segments r
    else
      match segments r with
      | [] => [[c]]
      | s :: ss => (c :: s) :: ss

def dropTrailingReturn (s : List Char) : List Char :=
  if s.getLast? = some '\r' then s.dropLast else s

/-- Terminated segments lose one carriage return at their end; the last segment counts only if
it is not empty. -/
def linesOfSegments : List (List Char) → List (List Char)
  | [] => []
  | [s] => if s.isEmpty then [] else [s]
  | s :: t :: ss => dropTrailingReturn s :: linesOfSegments (t :: ss)

def lines (cs : List Char) : List (List Char) := linesOfSegments (segments cs)

theorem segments_ne_nil (cs : List Char) : segments cs ≠ [] := by
  cases cs with
  | nil => simp [segments]
  | cons c r =>
    simp only [segments]
    split
    · simp
    · split <;> simp

end LineLogger.Text
