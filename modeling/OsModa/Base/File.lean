/-!
What a call of `std::fs::write` leaves behind.

The call truncates the file before it writes, so when it fails the file may be as it was or
hold only a part of the new content. A file is modelled by what it reads back as: `none`
when it is missing or does not parse.
-/

namespace OsModa

/-- How a call of `std::fs::write` ends. -/
inductive FileWrite where
  | written
  /-- It failed before the file was truncated. -/
  | kept
  /-- It failed afterwards. -/
  | torn
  deriving DecidableEq, Repr

/-- What the file reads back as afterwards. -/
def FileWrite.leaves {α : Type} : FileWrite → α → Option α → Option α
  | written, new, _ => some new
  | kept, _, old => old
  | torn, _, _ => none

end OsModa
