import Traceability.Text.Basic

/-!
# Alternatives in braces

A pattern such as `src/{a,b}.ts` stands for one pattern per alternative. The first group without a
group inside it is replaced first, so nested groups unfold from the inside, and of two groups side by
side the left one varies slowest.
-/
namespace Traceability.Glob

def isBrace (c : Char) : Bool := c = '{' || c = '}'

/-- The inside of a group, read behind its opening brace, and what follows the group; `none` if
another group opens first or the group stays open. -/
def inside? : Text → Option (Text × Text)
  | [] => none
  | c :: t =>
    if c = '}' then some ([], t)
    else if c = '{' then none
    else (inside? t).map fun (body, rest) => (c :: body, rest)

/-- The first group without a group inside it: what comes before, its inside and what follows. -/
def group? : Text → Option (Text × Text × Text)
  | [] => none
  | c :: t =>
    let later := (group? t).map fun (before, group) => (c :: before, group)
    if c = '{' then ((inside? t).map fun group => ([], group)).or later else later

def expandWithin : Nat → Text → List Text
  | 0, t => [t]
  | groups + 1, t =>
    match group? t with
    | none => [t]
    | some (before, body, rest) =>
      (Text.splitOn ',' body).flatMap fun choice => expandWithin groups (before ++ choice ++ rest)

/-- The patterns that a pattern with alternatives stands for. Every replacement removes an opening
brace and adds none. -/
def expand (t : Text) : List Text := expandWithin (t.count '{') t

theorem eq_of_inside?_eq_some {t body rest : Text} (h : inside? t = some (body, rest)) :
    t = body ++ '}' :: rest ∧ ∀ c ∈ body, isBrace c = false := by
  induction t generalizing body with
  | nil => simp [inside?] at h
  | cons c t ih =>
    unfold inside? at h
    split at h
    · rename_i hc
      simp only [Option.some.injEq, Prod.mk.injEq] at h
      obtain ⟨rfl, rfl⟩ := h
      simp [hc]
    · split at h
      · simp at h
      · rename_i hc ho
        simp only [Option.map_eq_some_iff, Prod.mk.injEq, Prod.exists] at h
        obtain ⟨b, r, hb, rfl, rfl⟩ := h
        obtain ⟨rfl, hnone⟩ := ih hb
        refine ⟨rfl, ?_⟩
        intro d hd
        rcases List.mem_cons.mp hd with rfl | hd
        · simp [isBrace, hc, ho]
        · exact hnone d hd

/-- A group is cut out without loss, and its inside has no braces. -/
theorem eq_of_group?_eq_some {t before body rest : Text}
    (h : group? t = some (before, body, rest)) :
    t = before ++ '{' :: (body ++ '}' :: rest) ∧ ∀ c ∈ body, isBrace c = false := by
  induction t generalizing before with
  | nil => simp [group?] at h
  | cons c t ih =>
    unfold group? at h
    dsimp only at h
    have later : ∀ {b : Text}, (group? t).map (fun (before, group) => (c :: before, group)) =
        some (b, body, rest) →
        c :: t = b ++ '{' :: (body ++ '}' :: rest) ∧ ∀ c ∈ body, isBrace c = false := by
      intro b hb
      simp only [Option.map_eq_some_iff, Prod.mk.injEq, Prod.exists] at hb
      obtain ⟨x, y, z, hx, rfl, rfl, rfl⟩ := hb
      obtain ⟨rfl, hnone⟩ := ih hx
      exact ⟨rfl, hnone⟩
    split at h
    · rename_i hc
      cases hi : inside? t with
      | none => rw [hi] at h; exact later (by simpa using h)
      | some g =>
        rw [hi] at h
        simp only [Option.map_some, Option.some_or, Option.some.injEq, Prod.mk.injEq] at h
        obtain ⟨rfl, rfl⟩ := h
        obtain ⟨rfl, hnone⟩ := eq_of_inside?_eq_some hi
        exact ⟨by simp [hc], hnone⟩
    · exact later h

example : expand "\x7ba,b\x7d.\x7bx,y\x7d" = ["a.x", "a.y", "b.x", "b.y"].map String.toList := by
  decide +kernel
example : expand "a\x7bb,\x7bc,d\x7d\x7d" = ["ab", "ac", "ab", "ad"].map String.toList := by
  decide +kernel

end Traceability.Glob
