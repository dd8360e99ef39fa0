import DocStore.Text.Basic

/-!
Regular expressions between slashes. The slashes and the letters after the last
one are no part of the expression.
-/

namespace DocStore.Pattern

/-- What may stand after the closing slash: ASCII letters, perhaps with one newline at the end. -/
def isFlags (t : Text) : Bool :=
  t.all Text.isAsciiLetter ||
    match t.reverse with
    | c :: letters => c = '\n' && letters.all Text.isAsciiLetter
    | [] => true

/-- The expression of a text, which may stand between slashes. -/
def withoutDelimiters (t : Text) : Text :=
  match t with
  | [] => []
  | c :: rest =>
    if c = '/' then
      let backwards := rest.reverse
      match backwards.dropWhile (fun c : CodePoint => c ≠ '/') with
      | [] => t
      | _ :: body =>
        if isFlags (backwards.takeWhile fun c : CodePoint => c ≠ '/').reverse then body.reverse
        else t
    else t

end DocStore.Pattern
