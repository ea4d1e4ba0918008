import DocComment.Xml.Document

/-!
# Balanced tags

`Balanced ts ns` is the grammar of content: every start tag among the tokens `ts` has its end tag
behind it, and `ns` are the nodes that the tokens stand for. Reading tokens finds exactly the nodes
of this grammar (`ofTokensFrom?_eq_some_iff`), whatever stands around them (`ofTokensFrom?_append`).
-/

namespace DocComment.Xml
open Node

/-- The node that a token stands for by itself. The tags of an element with content have none. -/
def Token.leaf? : Token → Option (Node String)
  | .text content => some (.text (String.ofList content))
  | .comment content => some (.comment content)
  | .instruction target data => some (.instruction target data)
  | .emptyTag name attributes => some (.element name attributes [])
  | .startTag _ _ => none
  | .endTag _ => none

/-- The tags match, and the nodes are those of the tokens. -/
inductive Balanced : List Token → List (Node String) → Prop where
  | nil : Balanced [] []
  | leaf {t : Token} {n : Node String} {ts : List Token} {ns : List (Node String)} :
      t.leaf? = some n → Balanced ts ns → Balanced (t :: ts) (n :: ns)
  | element (name : String) (attributes : List (String × String)) {inner ts : List Token}
      {content ns : List (Node String)} : Balanced inner content → Balanced ts ns →
      Balanced (.startTag name attributes :: (inner ++ .endTag name :: ts))
        (.element name attributes content :: ns)

variable {t : Token} {n : Node String} {ts : List Token} {ns nodes before : List (Node String)}
  {frames : List Frame}

theorem ofTokensFrom?_leaf (h : t.leaf? = some n) :
    ofTokensFrom? before frames (t :: ts) = ofTokensFrom? (n :: before) frames ts := by
  cases t with
  | startTag name attributes => cases h
  | endTag name => cases h
  | _ =>
    obtain rfl := Option.some.inj h
    rw [ofTokensFrom?]

/-- Balanced tokens are read as their nodes, and what follows as if these had stood there. -/
theorem Balanced.ofTokensFrom?_append (h : Balanced ts ns) (before : List (Node String))
    (frames : List Frame) (rest : List Token) :
    ofTokensFrom? before frames (ts ++ rest) = ofTokensFrom? (ns.reverse ++ before) frames rest := by
  induction h generalizing before frames rest with
  | nil => rfl
  | leaf ht _ ih =>
    rw [List.cons_append, ofTokensFrom?_leaf ht, ih, List.reverse_cons, List.append_assoc,
      List.singleton_append]
  | element name attributes _ _ ihinner ih =>
    rw [List.cons_append, List.append_assoc, List.cons_append, ofTokensFrom?, ihinner, ofTokensFrom?,
      List.append_nil, List.reverse_reverse, if_pos rfl, ih, List.reverse_cons, List.append_assoc,
      List.singleton_append]

/-! ### Open elements -/

/-- What the open elements ask of the tokens to come, if `nodes` are to be read: each takes the
content that is left of it and its end tag. -/
inductive Closes (nodes : List (Node String)) :
    List (Node String) → List Frame → List Token → Prop where
  | nil {before ns : List (Node String)} {ts : List Token} :
      Balanced ts ns → before.reverse ++ ns = nodes → Closes nodes before [] ts
  | cons {before content : List (Node String)} {frame : Frame} {frames : List Frame}
      {inner rest : List Token} : Balanced inner content →
      Closes nodes (.element frame.name frame.attributes (before.reverse ++ content) :: frame.before)
        frames rest →
      Closes nodes before (frame :: frames) (inner ++ .endTag frame.name :: rest)

namespace Closes

theorem leaf (ht : t.leaf? = some n) (h : Closes nodes (n :: before) frames ts) :
    Closes nodes before frames (t :: ts) := by
  cases h with
  | nil hts hnodes => exact .nil (.leaf ht hts) (by simpa using hnodes)
  | cons hinner hrest => exact .cons (.leaf ht hinner) (by simpa using hrest)

theorem startTag {name : String} {attributes : List (String × String)}
    (h : Closes nodes [] (⟨name, attributes, before⟩ :: frames) ts) :
    Closes nodes before frames (.startTag name attributes :: ts) := by
  cases h with
  | cons hinner hrest =>
    cases hrest with
    | nil hts hnodes => exact .nil (.element name attributes hinner hts) (by simpa using hnodes)
    | cons hts hrest =>
      have hinner' := Balanced.element name attributes hinner hts
      simpa using Closes.cons hinner' (by simpa using hrest)

theorem of_ofTokensFrom? (h : ofTokensFrom? before frames ts = some nodes) :
    Closes nodes before frames ts := by
  induction ts generalizing before frames with
  | nil =>
    rw [ofTokensFrom?] at h
    cases frames with
    | nil => exact .nil .nil (by simpa using h)
    | cons frame frames => cases h
  | cons t ts ih =>
    cases hleaf : t.leaf? with
    | some n =>
      rw [ofTokensFrom?_leaf hleaf] at h
      exact leaf hleaf (ih h)
    | none =>
      cases t with
      | startTag name attributes =>
        rw [ofTokensFrom?] at h
        exact startTag (ih h)
      | endTag name =>
        cases frames with
        | nil => cases h
        | cons frame frames =>
          rw [ofTokensFrom?, Option.ite_none_right_eq_some] at h
          obtain ⟨rfl, h⟩ := h
          exact cons .nil (by simpa using ih h)
      | _ => cases hleaf

end Closes

/-- Tokens are read exactly if they are balanced. -/
theorem ofTokensFrom?_eq_some_iff : ofTokensFrom? [] [] ts = some ns ↔ Balanced ts ns := by
  constructor
  · intro h
    cases Closes.of_ofTokensFrom? h with
    | nil hts hns => exact hns ▸ hts
  · intro h
    have hread := h.ofTokensFrom?_append [] [] []
    rw [List.append_nil] at hread
    rw [hread, List.append_nil, ofTokensFrom?, List.reverse_reverse]
    rfl

/-! ### The element of a document -/

theorem Balanced.not_mem_endTag (h : Balanced ts ns) (hns : ∀ n ∈ ns, isAside n = true)
    (name : String) : .endTag name ∉ ts := by
  induction h with
  | nil => exact List.not_mem_nil
  | leaf ht _ ih =>
    refine List.not_mem_cons_of_ne_of_not_mem ?_ (ih fun n hn => hns n (List.mem_cons_of_mem _ hn))
    rintro rfl
    cases ht
  | element => cases hns _ (List.mem_cons_self ..)

/-- Where the tags at both ends of tokens are those of the only element, they belong together. What
stands between them is balanced by itself. -/
theorem Balanced.of_between_tags {name name' : String} {attributes : List (String × String)}
    {root : Node String}
    (h : Balanced (.startTag name attributes :: (ts ++ [.endTag name'])) nodes)
    (hroot : nodes.filter (!isAside ·) = [root]) :
    ∃ content, Balanced ts content ∧ root = .element name attributes content := by
  generalize hall : ts ++ [.endTag name'] = all at h
  cases h with
  | leaf ht => cases ht
  | @element _ _ inner rest content ns hinner hrest =>
    have hfilter : (Node.element name attributes content :: ns).filter (!isAside ·) =
        .element name attributes content :: ns.filter (!isAside ·) := List.filter_cons_of_pos rfl
    rw [hfilter] at hroot
    obtain ⟨hroot, hns⟩ := List.cons.inj hroot
    have haside : ∀ n ∈ ns, isAside n = true := by simpa using hns
    rcases List.eq_nil_or_concat rest with rfl | ⟨rest, last, rfl⟩
    · obtain ⟨rfl, -⟩ := List.append_inj' hall rfl
      exact ⟨content, hinner, hroot.symm⟩
    · -- the last end tag would belong to no element
      have hsplit : ts ++ [.endTag name'] = (inner ++ .endTag name :: rest) ++ [last] := by
        simpa using hall
      have hlast : .endTag name' = last := List.singleton_inj.1 (List.append_inj' hsplit rfl).2
      exact absurd (by simp [hlast]) (hrest.not_mem_endTag haside name')

end DocComment.Xml
