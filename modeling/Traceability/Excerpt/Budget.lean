import Traceability.Excerpt.Assembly

/-!
# Budgets

Excerpts are kept in order as long as they fit. A first excerpt that does not fit is cut, and then
nothing follows it. A footer says how many excerpts were left out.
-/
namespace Traceability

def charactersPerToken : Nat := 4

def estimateTokens (t : Text) : Nat := (t.length + (charactersPerToken - 1)) / charactersPerToken

structure BudgetedExcerpts where
  excerpts : List Excerpt
  footer : Option Text
deriving DecidableEq, Repr, Inhabited

namespace BudgetedExcerpts

def truncated (b : BudgetedExcerpts) : Bool := b.footer.isSome

def fitting (limit : Nat) : (used : Nat) → List Excerpt → List Excerpt
  | _, [] => []
  | used, e :: rest =>
    let cost := estimateTokens e.content
    if used + cost ≤ limit then e :: fitting limit (used + cost) rest else fitting limit used rest

def footerFor (omitted : Nat) : Option Text :=
  if omitted = 0 then none
  else
    let noun : Text := if omitted = 1 then "section" else "sections"
    some ("... " ++ Text.ofNat omitted ++ " more " ++ noun ++
      " omitted (use --max-tokens to increase)")

def within (limit : Int) (excerpts : List Excerpt) : BudgetedExcerpts :=
  if limit ≤ 0 then ⟨[], none⟩
  else match excerpts with
    | [] => ⟨[], none⟩
    | e :: rest =>
      if estimateTokens e.content ≤ limit.toNat then
        let kept := fitting limit.toNat 0 (e :: rest)
        ⟨kept, footerFor ((e :: rest).length - kept.length)⟩
      else
        ⟨[{ e with content := e.content.take (limit.toNat * charactersPerToken) }],
          footerFor rest.length⟩

end BudgetedExcerpts

end Traceability
