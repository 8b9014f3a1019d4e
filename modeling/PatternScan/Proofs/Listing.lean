import PatternScan.Pattern.Grammar
import PatternScan.Proofs.Quoting

/-!
# Reading listings

The listing of an expression tells where it ends and which expression it is of, but for the spans
(`Expr.bare_eq_of_listing_append`). A literal may be of any character that stands elsewhere in a
listing, as a blank, a parenthesis or a quote; it is told from these by its quotes, between which a
character is read back from its escaped form.
-/

namespace PatternScan

namespace Quoted

theorem unescape?_escapeSingle (c : Char) (rest : List Char) :
    unescape? (escapeSingle c ++ rest) = some (c, rest) := by
  unfold escapeSingle
  split
  · next hc =>
    rw [hc]
    exact unescape?_cons (by decide) rest
  · exact unescape?_escape c rest

/-- A quoted character tells which one it is, and where it ends. -/
theorem eq_of_literal_append {c c' : Char} {rest rest' : List Char}
    (h : literal c ++ rest = literal c' ++ rest') : c = c' ∧ rest = rest' := by
  simp only [literal, List.cons_append, List.append_assoc, List.cons.injEq, true_and] at h
  have hread := congrArg unescape? h
  rw [unescape?_escapeSingle, unescape?_escapeSingle] at hread
  simpa using hread

end Quoted

theorem Quantifier.symbol_inj {q q' : Quantifier} : q.symbol = q'.symbol ↔ q = q' := by
  cases q <;> cases q' <;> simp [symbol]

namespace Expr

section Equations

variable (c : Char) (items : List Expr) (e inner : Expr) (q : Quantifier) (span : Span)

@[simp] theorem listing_literal : listing (.literal c span) = Quoted.literal c := rfl

@[simp] theorem listing_wildcard : listing (.wildcard span) = ['a', 'n', 'y'] := rfl

@[simp] theorem listing_concat :
    listing (.concat items) = ['(', 'c', 'a', 't'] ++ listings items ++ [')'] := rfl

@[simp] theorem listing_alternation :
    listing (.alternation items) = ['(', 'a', 'l', 't'] ++ listings items ++ [')'] := rfl

@[simp] theorem listing_group : listing (.group inner span) =
    ['(', 'g', 'r', 'o', 'u', 'p', ' '] ++ listing inner ++ [')'] := rfl

@[simp] theorem listing_repetition :
    listing (.repetition q inner span) = ['(', q.symbol, ' '] ++ listing inner ++ [')'] := rfl

@[simp] theorem listings_nil : listings [] = [] := rfl

@[simp] theorem listings_cons :
    listings (e :: items) = [' '] ++ listing e ++ listings items := rfl

end Equations

mutual

theorem listing_bare : ∀ e : Expr, e.bare.listing = e.listing
  | .literal _ _ | .wildcard _ => rfl
  | .concat items | .alternation items => by simp [bare, listings_bares items]
  | .group inner _ | .repetition _ inner _ => by simp [bare, listing_bare inner]

theorem listings_bares : ∀ items : List Expr, listings (bares items) = listings items
  | [] => rfl
  | e :: rest => by simp [bares, listing_bare e, listings_bares rest]

end

mutual

/-- The listing of an expression tells which one it is, but for the spans, and where it ends. -/
theorem bare_eq_of_listing_append : ∀ {e e' : Expr} {rest rest' : List Char},
    e.listing ++ rest = e'.listing ++ rest' → e.bare = e'.bare ∧ rest = rest'
  | .literal c _, e', rest, rest', h => by
    cases e' with
    | literal c' =>
      obtain ⟨rfl, rfl⟩ := Quoted.eq_of_literal_append h
      exact ⟨rfl, rfl⟩
    | _ => simp [Quoted.literal] at h
  | .wildcard _, e', rest, rest', h => by
    cases e' with
    | wildcard => exact ⟨rfl, List.append_cancel_left h⟩
    | _ => simp [Quoted.literal] at h
  | .concat items, e', rest, rest', h => by
    cases e' with
    | concat items' =>
      have hlistings : listings items ++ ')' :: rest = listings items' ++ ')' :: rest' := by
        simpa using h
      have hitems := bares_eq_of_listings_append hlistings
      simpa only [bare, Expr.concat.injEq] using hitems
    | repetition q => cases q <;> simp [Quantifier.symbol] at h
    | _ => simp [Quoted.literal] at h
  | .alternation items, e', rest, rest', h => by
    cases e' with
    | alternation items' =>
      have hlistings : listings items ++ ')' :: rest = listings items' ++ ')' :: rest' := by
        simpa using h
      have hitems := bares_eq_of_listings_append hlistings
      simpa only [bare, Expr.alternation.injEq] using hitems
    | repetition q => cases q <;> simp [Quantifier.symbol] at h
    | _ => simp [Quoted.literal] at h
  | .group inner _, e', rest, rest', h => by
    cases e' with
    | group inner' =>
      simp only [listing_group, List.append_assoc, List.append_cancel_left_eq] at h
      obtain ⟨hinner, hrest⟩ := bare_eq_of_listing_append h
      exact ⟨by simp only [bare, hinner], List.append_cancel_left hrest⟩
    | repetition q => cases q <;> simp [Quantifier.symbol] at h
    | _ => simp [Quoted.literal] at h
  | .repetition q inner _, e', rest, rest', h => by
    cases e' with
    | repetition q' inner' =>
      simp only [listing_repetition, List.cons_append, List.nil_append, List.append_assoc,
        List.cons.injEq, true_and, Quantifier.symbol_inj] at h
      obtain ⟨rfl, hlistings⟩ := h
      obtain ⟨hinner, hrest⟩ := bare_eq_of_listing_append hlistings
      exact ⟨by simp only [bare, hinner], (List.cons.inj hrest).2⟩
    | _ => cases q <;> simp [Quoted.literal, Quantifier.symbol] at h

/-- The parts of a list are told apart by the blank before each of them. -/
theorem bares_eq_of_listings_append : ∀ {items items' : List Expr} {rest rest' : List Char},
    listings items ++ ')' :: rest = listings items' ++ ')' :: rest' →
      bares items = bares items' ∧ rest = rest'
  | [], [], rest, rest', h => by simpa using h
  | [], _ :: _, rest, rest', h => by simp at h
  | _ :: _, [], rest, rest', h => by simp at h
  | e :: items, e' :: items', rest, rest', h => by
    simp only [listings_cons, List.append_assoc, List.append_cancel_left_eq] at h
    obtain ⟨he, hrest⟩ := bare_eq_of_listing_append h
    obtain ⟨hitems, rfl⟩ := bares_eq_of_listings_append hrest
    simp only [bares, he, hitems, and_self]

end

/-- Two expressions have the same listing just if they differ at most in their spans. -/
theorem listing_eq_iff (e e' : Expr) : e.listing = e'.listing ↔ e.bare = e'.bare := by
  constructor
  · intro h
    exact (bare_eq_of_listing_append (congrArg (· ++ []) h)).1
  · intro h
    rw [← listing_bare e, h, listing_bare]

-- Literals that look like parts of the listing, and a list without parts.
example : listing (.concat [.literal ')' ⟨0, 1⟩, .literal '\'' ⟨1, 2⟩, .alternation []]) =
    "(cat ')' '\\'' (alt))".toList := rfl

end Expr

end PatternScan
