import SqlSession.Proofs.Condition.Tree

/-!
# `SqlSession.Proofs.Condition.Rendering`: conditions as tokens

A rendered condition is a sequence of tokens: single conditions, AND,
OR and parentheses. What is written inside a single condition is not
looked at. `Predicate.tokens` says which sequence it is: a group of
more than one entry stands between parentheses, and every entry but the
first has its combinator in front.

`Predicate.Sound.draft_eq` proves that this is what is rendered. The
rendering skips blank fragments, leaves the combinator out where one of
its sides is blank, and decides about parentheses by the number of
entries. In a sound tree nothing is blank, so none of this ever
happens.
-/

set_option autoImplicit false

namespace SqlSession

/-- A piece of a rendered condition. -/
inductive Token where
  | leaf (e : Expression)
  | and
  | or
  | opening
  | closing
  deriving Inhabited

/-- A token as it is written, with the values that it binds. -/
def Token.fragment : Token → Fragment
  | .leaf e => ⟨e.spec, e.values⟩
  | .and => ⟨" AND ", []⟩
  | .or => ⟨" OR ", []⟩
  | .opening => ⟨"(", []⟩
  | .closing => ⟨")", []⟩

/-- The single condition that a token is, if it is one. -/
def Token.leaf? : Token → Option Expression
  | .leaf e => some e
  | _ => none

/-- A combinator as a token. -/
def Combinator.token : Combinator → Token
  | .and => .and
  | .or => .or

mutual

/-- The tokens of a node. -/
def Node.tokens : Node → List Token
  | .leaf e => [.leaf e]
  | .group entries =>
      if 1 < entries.length then .opening :: (entriesTokens entries ++ [.closing])
      else entriesTokens entries
termination_by structural node => node

/-- The tokens of entries, without the combinator of the first one. -/
def entriesTokens : List Entry → List Token
  | [] => []
  | (_, node) :: rest => node.tokens ++ laterTokens rest
termination_by structural entries => entries

/-- The tokens of entries behind others, each with its combinator in
front. -/
def laterTokens : List Entry → List Token
  | [] => []
  | (combinator, node) :: rest => combinator.token :: (node.tokens ++ laterTokens rest)
termination_by structural entries => entries

end

/-- The tokens of a predicate. -/
def Predicate.tokens (p : Predicate) : List Token := entriesTokens p.entries

/-- Tokens one after another as a draft. -/
def Draft.ofTokens (tokens : List Token) : Draft := ⟨tokens.map Token.fragment, none⟩

namespace Draft

/-- Tokens behind tokens are a draft behind a draft. -/
theorem ofTokens_append (ts us : List Token) :
    ofTokens ts ++ ofTokens us = ofTokens (ts ++ us) := by
  rw [append_eq rfl]
  simp [ofTokens]

/-- Where both sides have text, a combinator stands between them. -/
theorem ofTokens_add {ts us : List Token} (combinator : Combinator)
    (hts : (ofTokens ts).isEmpty = false) (hus : (ofTokens us).isEmpty = false) :
    (ofTokens ts).add combinator.text (ofTokens us)
      = ofTokens (ts ++ combinator.token :: us) := by
  have hmid : plain combinator.text = ofTokens [combinator.token] := by
    cases combinator <;> rfl
  unfold add
  rw [hts, hus, hmid, Bool.or_self, if_neg Bool.false_ne_true, ofTokens_append,
    ofTokens_append, List.append_assoc]
  rfl

/-- A text in front stays one, whatever comes behind it. -/
theorem isEmpty_ofTokens_append_left {ts : List Token} (us : List Token)
    (h : (ofTokens ts).isEmpty = false) : (ofTokens (ts ++ us)).isEmpty = false := by
  rw [← ofTokens_append, isEmpty_append rfl, h]
  rfl

end Draft

/-- A condition that is neither blank nor bad has a text. -/
theorem Expression.isEmpty_draft {e : Expression} (h : e.isEmpty = false)
    (ok : e.error = none) : e.draft.isEmpty = false := by
  have hspec : e.spec ≠ "" := by
    intro hs
    rw [Expression.isEmpty, ok, hs] at h
    exact absurd h (by decide)
  simpa [Expression.draft, ok, Draft.bound, Draft.isEmpty] using hspec

/-- What has to be known of the nodes among entries: each is rendered
as its tokens, and has a text. -/
def Node.Rendered (node : Node) : Prop :=
  node.draft = .ofTokens node.tokens ∧ (Draft.ofTokens node.tokens).isEmpty = false

/-- Entries behind a draft that has a text continue it, each with its
combinator in front. -/
theorem draftEntries_ofTokens (ts : List Token) (entries : List Entry)
    (hts : (Draft.ofTokens ts).isEmpty = false) (h : ∀ entry ∈ entries, entry.2.Rendered) :
    draftEntries (.ofTokens ts) entries = .ofTokens (ts ++ laterTokens entries) := by
  induction entries generalizing ts with
  | nil => simp [draftEntries, laterTokens]
  | cons entry rest ih =>
      obtain ⟨combinator, node⟩ := entry
      obtain ⟨hdraft, htext⟩ := h (combinator, node) (by simp)
      -- Both sides have a text, so the combinator is written between them.
      rw [draftEntries, hdraft, Draft.ofTokens_add combinator hts htext,
        ih _ (Draft.isEmpty_ofTokens_append_left _ hts) fun e he => h e (by simp [he])]
      simp [laterTokens]

/-- Entries of which there is at least one are rendered as their tokens,
and have a text. -/
theorem draftEntries_empty {entries : List Entry} (hne : entries ≠ [])
    (h : ∀ entry ∈ entries, entry.2.Rendered) :
    draftEntries .empty entries = .ofTokens (entriesTokens entries) ∧
      (Draft.ofTokens (entriesTokens entries)).isEmpty = false := by
  match entries with
  | (combinator, node) :: rest =>
      obtain ⟨hdraft, htext⟩ := h (combinator, node) (by simp)
      refine ⟨?_, Draft.isEmpty_ofTokens_append_left _ htext⟩
      -- Nothing stands before the first entry, so its combinator is left out.
      rw [draftEntries, Draft.empty_add, hdraft,
        draftEntries_ofTokens _ _ htext fun e he => h e (by simp [he])]
      rfl

/-- A sound node without errors is rendered as its tokens. The induction
is on soundness, so every entry of a group comes with its own case. -/
theorem Node.Sound.rendered {node : Node} (h : node.Sound) (ok : node.error? = none) :
    node.Rendered := by
  induction h with
  | @leaf e _ hblank =>
      have he : e.error = none := by simpa [Node.error?] using ok
      have hdraft : e.draft = .ofTokens [.leaf e] := by
        simp [Expression.draft, he, Draft.bound, Draft.ofTokens, Token.fragment]
      exact ⟨by simpa [Node.draft, Node.tokens] using hdraft, by
        rw [Node.tokens, ← hdraft]
        exact Expression.isEmpty_draft hblank he⟩
  | @group entries hne _ ih =>
      have hleaves := (entriesError?_eq_none entries).mp (by simpa [Node.error?] using ok)
      obtain ⟨hdraft, htext⟩ := draftEntries_empty hne fun entry hentry =>
        ih entry hentry ((Node.error?_eq_none entry.2).mpr fun e he =>
          hleaves e (mem_entriesLeaves hentry he))
      unfold Node.Rendered
      simp only [Node.draft, Node.tokens, hdraft, htext]
      by_cases hlen : 1 < entries.length
      · -- The parentheses are written: there is more than one entry, and a text.
        rw [if_pos ⟨hlen, rfl⟩, if_pos hlen]
        refine ⟨?_, rfl⟩
        show Draft.ofTokens [.opening] ++ Draft.ofTokens _ ++ Draft.ofTokens [.closing] = _
        rw [Draft.ofTokens_append, Draft.ofTokens_append]
        rfl
      · rw [if_neg fun h => hlen h.1, if_neg hlen]
        exact ⟨rfl, htext⟩

/-- A sound predicate without errors is rendered as its tokens. -/
theorem Predicate.Sound.draft_eq {p : Predicate} (h : p.Sound) (ok : p.error? = none) :
    p.draft = .ofTokens p.tokens := by
  by_cases hne : p.entries = []
  · rw [Predicate.draft, Predicate.tokens, hne]
    rfl
  · have hleaves := (entriesError?_eq_none p.entries).mp ok
    exact (draftEntries_empty hne fun entry hentry =>
      (h entry hentry).rendered ((Node.error?_eq_none entry.2).mpr fun e he =>
        hleaves e (mem_entriesLeaves hentry he))).1

/-! ### The leaves among the tokens -/

/-- The single conditions of some tokens are the tokens that are one. -/
theorem Token.mem_filterMap_leaf? {ts : List Token} {e : Expression} :
    e ∈ ts.filterMap Token.leaf? ↔ .leaf e ∈ ts := by
  rw [List.mem_filterMap]
  constructor
  · rintro ⟨t, ht, hleaf⟩
    cases t with
    | leaf x => exact Option.some.inj hleaf ▸ ht
    | _ => exact nomatch hleaf
  · exact fun h => ⟨_, h, rfl⟩

mutual

/-- The conditions among the tokens of a node are its leaves. -/
theorem Node.filterMap_tokens : (node : Node) → node.tokens.filterMap Token.leaf? = node.leaves
  | .leaf e => rfl
  | .group entries => by
      rw [Node.tokens, Node.leaves]
      split
      · rw [List.filterMap_cons_none rfl, List.filterMap_append, filterMap_entriesTokens entries]
        exact List.append_nil _
      · exact filterMap_entriesTokens entries

/-- The single conditions among the tokens are those of the tree, in
order. -/
theorem filterMap_entriesTokens : (entries : List Entry) →
    (entriesTokens entries).filterMap Token.leaf? = entriesLeaves entries
  | [] => rfl
  | (_, node) :: rest => by
      rw [entriesTokens, entriesLeaves, List.filterMap_append, Node.filterMap_tokens node,
        filterMap_laterTokens rest]

/-- The same of entries that stand behind others, each after its
combinator. -/
theorem filterMap_laterTokens : (entries : List Entry) →
    (laterTokens entries).filterMap Token.leaf? = entriesLeaves entries
  | [] => rfl
  | (combinator, node) :: rest => by
      rw [laterTokens, List.filterMap_cons_none (by cases combinator <;> rfl),
        List.filterMap_append, Node.filterMap_tokens node, filterMap_laterTokens rest]
      rfl

end

/-- No single condition is lost, doubled or moved. -/
theorem Predicate.filterMap_tokens (p : Predicate) :
    p.tokens.filterMap Token.leaf? = p.leaves :=
  filterMap_entriesTokens p.entries

end SqlSession
