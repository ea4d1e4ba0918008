import DocComment.Proofs.Balanced
import DocComment.Proofs.CharClass
import DocComment.Proofs.DocumentChar
import DocComment.Proofs.WrittenMarkup

/-!
# Trees in writing

A tree of elements without attributes and of texts can be written down. The tokens of what is written
are those of the tree, one for each character of a text at first and then the same with whole texts
(`joinText_tokens`), and these tokens give the tree back (`ofTokens?_tokens`).
-/

namespace DocComment.Xml

namespace Node

variable {ν : Type}

def isText : Node ν → Bool
  | .text _ => true
  | _ => false

mutual

/-- A node in writing. There are neither attributes nor comments or instructions in it. -/
def written : Node String → List Char
  | .text content => escaped content.toList
  | .comment _ => []
  | .instruction _ _ => []
  | .element name _ content => startTag name ++ (writtenContent content ++ endTag name)

def writtenContent : List (Node String) → List Char
  | [] => []
  | n :: ns => n.written ++ writtenContent ns

end

mutual

/-- Whether there is nothing in the node but elements without attributes and texts, and no text is
empty or beside another. -/
def Plain : Node String → Prop
  | .text content => content ≠ ""
  | .comment _ => False
  | .instruction _ _ => False
  | .element name attributes content => IsName name ∧ attributes = [] ∧ PlainContent content

def PlainContent : List (Node String) → Prop
  | [] => True
  | n :: ns => n.Plain ∧ (n.isText = true → ∀ m ∈ ns.head?, m.isText = false) ∧ PlainContent ns

end

mutual

/-- The tokens of a node, with `text` for its texts. -/
def tokens (text : String → List Token) : Node String → List Token
  | .text content => text content
  | .comment _ => []
  | .instruction _ _ => []
  | .element name _ content =>
    .startTag name [] :: (tokensOfContent text content ++ [.endTag name])

def tokensOfContent (text : String → List Token) : List (Node String) → List Token
  | [] => []
  | n :: ns => n.tokens text ++ tokensOfContent text ns

end

mutual

/-- The node with its names in no namespace, and without attributes. -/
def plainNamed : Node String → Node Name
  | .text content => .text content
  | .comment content => .comment content
  | .instruction target data => .instruction target data
  | .element name _ content => .element (Name.plain name) [] (plainNamedContent content)

def plainNamedContent : List (Node String) → List (Node Name)
  | [] => []
  | n :: ns => n.plainNamed :: plainNamedContent ns

end

theorem exists_element_of_plain {n : Node String} (h : n.Plain) (htext : n.isText = false) :
    ∃ name content, n = .element name [] content ∧ IsName name ∧ PlainContent content := by
  cases n with
  | text content => cases htext
  | comment content => exact absurd h (by simp [Plain])
  | instruction target data => exact absurd h (by simp [Plain])
  | element name attributes content =>
    rw [Plain] at h
    obtain ⟨hname, rfl, hcontent⟩ := h
    exact ⟨name, content, rfl, hname, hcontent⟩

end Node

/-! ### Tokens -/

/-- A text as it is read, one token for a character. -/
def Token.eachChar (content : String) : List Token :=
  content.toList.map fun c => .text [c]

/-- A text as one token. -/
def Token.whole (content : String) : List Token :=
  [.text content.toList]

namespace Node

/-- What stands behind a text starts a tag. -/
theorem exists_writtenContent_append {ns : List (Node String)} (hplain : PlainContent ns)
    (htext : ∀ m ∈ ns.head?, m.isText = false) (rest : List Char) :
    ∃ s, writtenContent ns ++ '<' :: rest = '<' :: s := by
  cases ns with
  | nil => exact ⟨rest, rfl⟩
  | cons m ns =>
    rw [PlainContent] at hplain
    obtain ⟨name, content, rfl, -, -⟩ := exists_element_of_plain hplain.1 (htext m rfl)
    rw [writtenContent, written]
    exact ⟨_, rfl⟩

mutual

theorem tokens?_written {rest : List Char} {ts : List Token} (h : tokens? rest = some ts) :
    (n : Node String) → n.Plain → (n.isText = true → ∃ s, rest = '<' :: s) →
      tokens? (n.written ++ rest) = some (n.tokens Token.eachChar ++ ts)
  | .text content, _, hrest => by
    obtain ⟨s, rfl⟩ := hrest rfl
    rw [written, tokens]
    exact tokens?_escaped content.toList h
  | .comment _, hplain, _ => by simp [Plain] at hplain
  | .instruction _ _, hplain, _ => by simp [Plain] at hplain
  | .element name attributes content, hplain, _ => by
    rw [Plain] at hplain
    obtain ⟨hname, -, hcontent⟩ := hplain
    have hend : tokens? ('<' :: ('/' :: name.toList ++ ['>'] ++ rest)) =
        some (.endTag name :: ts) := tokens?_eq_cons (next?_endTag hname) h
    have hinner := tokens?_writtenContent hend content hcontent
    rw [written, tokens, List.append_assoc, List.append_assoc]
    refine (tokens?_eq_cons (next?_startTag hname) hinner).trans ?_
    rw [List.cons_append, List.append_assoc, List.singleton_append]

theorem tokens?_writtenContent {rest : List Char} {ts : List Token}
    (h : tokens? ('<' :: rest) = some ts) : (ns : List (Node String)) → PlainContent ns →
      tokens? (writtenContent ns ++ '<' :: rest) =
        some (tokensOfContent Token.eachChar ns ++ ts)
  | [], _ => by
    rw [writtenContent, tokensOfContent]
    exact h
  | n :: ns, hplain => by
    rw [PlainContent] at hplain
    obtain ⟨hn, htext, hns⟩ := hplain
    have hrest := tokens?_writtenContent h ns hns
    rw [writtenContent, tokensOfContent, List.append_assoc, List.append_assoc]
    exact tokens?_written hrest n hn fun hn => exists_writtenContent_append hns (htext hn) rest

end

end Node

/-! ### Whole texts -/

theorem consText_nil (ts : List Token) : consText [] ts = ts := by
  unfold consText
  split <;> rfl

theorem consText_consText (s s' : List Char) (ts : List Token) :
    consText s (consText s' ts) = consText (s ++ s') ts := by
  match ts with
  | .text more :: ts => simp [consText]
  | [] => cases s' <;> simp [consText]
  | .comment _ :: _ => cases s' <;> simp [consText]
  | .instruction _ _ :: _ => cases s' <;> simp [consText]
  | .startTag _ _ :: _ => cases s' <;> simp [consText]
  | .emptyTag _ _ :: _ => cases s' <;> simp [consText]
  | .endTag _ :: _ => cases s' <;> simp [consText]

theorem joinText_eachChar (content : String) (ts : List Token) :
    joinText (Token.eachChar content ++ ts) = consText content.toList (joinText ts) := by
  unfold Token.eachChar
  induction content.toList with
  | nil => exact (consText_nil _).symm
  | cons c s ih => rw [List.map_cons, List.cons_append, joinText, ih, consText_consText]; rfl

/-- No text is first among the tokens. -/
def StartsNoText (ts : List Token) : Prop :=
  ∀ t ∈ ts.head?, ∀ content, t ≠ .text content

theorem consText_of_startsNoText {s : List Char} {ts : List Token} (hs : s ≠ [])
    (h : StartsNoText ts) : consText s ts = .text s :: ts := by
  unfold consText
  split
  · next more ts => exact absurd rfl (h (.text more) rfl more)
  · exact if_neg hs

theorem consText_append {s : List Char} {ts us : List Token} (h : StartsNoText us) :
    consText s (ts ++ us) = consText s ts ++ us := by
  by_cases hs : s = []
  · rw [hs, consText_nil, consText_nil]
  · cases ts with
    | nil =>
      rw [List.nil_append, consText_of_startsNoText hs h, consText, if_neg hs, List.singleton_append]
      exact fun _ _ heq => nomatch heq
    | cons t ts => cases t <;> simp [consText, hs]

/-- No text is joined across a token that is none. -/
theorem joinText_append (ts : List Token) {us : List Token} (h : StartsNoText (joinText us)) :
    joinText (ts ++ us) = joinText ts ++ joinText us := by
  fun_induction joinText ts with
  | case1 => rfl
  | case2 content rest ih => rw [List.cons_append, joinText, ih, consText_append h]
  | case3 t rest ht ih =>
    rw [List.cons_append, joinText, ih, List.cons_append]
    exact ht

namespace Node

theorem startsNoText_tokensOfContent {text : String → List Token} {ns : List (Node String)}
    (hplain : PlainContent ns) (htext : ∀ m ∈ ns.head?, m.isText = false) {ts : List Token}
    (h : StartsNoText ts) : StartsNoText (tokensOfContent text ns ++ ts) := by
  cases ns with
  | nil => exact h
  | cons m ns =>
    rw [PlainContent] at hplain
    obtain ⟨name, content, rfl, -, -⟩ := exists_element_of_plain hplain.1 (htext m rfl)
    rw [tokensOfContent, tokens]
    intro t ht content
    obtain rfl := Option.some.inj ht
    exact Token.noConfusion

mutual

theorem joinText_tokens {ts : List Token} : (n : Node String) → n.Plain →
    (n.isText = true → StartsNoText (joinText ts)) →
      joinText (n.tokens Token.eachChar ++ ts) = n.tokens Token.whole ++ joinText ts
  | .text content, hplain, hts => by
    rw [Plain] at hplain
    have hne : content.toList ≠ [] := fun h => hplain (String.toList_eq_nil_iff.1 h)
    rw [tokens, tokens, joinText_eachChar, consText_of_startsNoText hne (hts rfl)]
    rfl
  | .comment _, hplain, _ => by simp [Plain] at hplain
  | .instruction _ _, hplain, _ => by simp [Plain] at hplain
  | .element name attributes content, hplain, _ => by
    rw [Plain] at hplain
    -- the end tag keeps a text at the end of the content apart from what follows the element
    have hend : joinText (.endTag name :: ts) = .endTag name :: joinText ts := rfl
    have hno : StartsNoText (joinText (.endTag name :: ts)) := by
      rw [hend]
      intro t ht content
      obtain rfl := Option.some.inj ht
      exact Token.noConfusion
    have hinner := joinText_tokensOfContent hno content hplain.2.2
    rw [tokens, tokens, List.cons_append, List.append_assoc, List.singleton_append, joinText, hinner,
      hend, List.cons_append, List.append_assoc, List.singleton_append]
    exact fun _ => Token.noConfusion

theorem joinText_tokensOfContent {ts : List Token} (hts : StartsNoText (joinText ts)) :
    (ns : List (Node String)) → PlainContent ns →
      joinText (tokensOfContent Token.eachChar ns ++ ts) =
        tokensOfContent Token.whole ns ++ joinText ts
  | [], _ => by
    rw [tokensOfContent, tokensOfContent]
    rfl
  | n :: ns, hplain => by
    rw [PlainContent] at hplain
    obtain ⟨hn, htext, hns⟩ := hplain
    have hrest := joinText_tokensOfContent hts ns hns
    rw [tokensOfContent, tokensOfContent, List.append_assoc, List.append_assoc, ← hrest]
    refine joinText_tokens n hn fun hn => ?_
    rw [hrest]
    exact startsNoText_tokensOfContent hns (htext hn) hts

end

/-! ### Trees -/

mutual

/-- The tags of a tree in writing are balanced. -/
theorem balanced_tokens {ts : List Token} {ns : List (Node String)} (hts : Balanced ts ns) :
    (n : Node String) → n.Plain → Balanced (n.tokens Token.whole ++ ts) (n :: ns)
  | .text content, _ => by
    have hleaf : Token.leaf? (.text content.toList) = some (.text content) := by
      rw [Token.leaf?, String.ofList_toList]
    rw [tokens, Token.whole, List.singleton_append]
    exact .leaf hleaf hts
  | .comment _, hplain => by simp [Plain] at hplain
  | .instruction _ _, hplain => by simp [Plain] at hplain
  | .element name attributes content, hplain => by
    rw [Plain] at hplain
    obtain ⟨-, rfl, hcontent⟩ := hplain
    have hinner := balanced_tokensOfContent .nil content hcontent
    rw [List.append_nil, List.append_nil] at hinner
    rw [tokens, List.cons_append, List.append_assoc, List.singleton_append]
    exact .element name [] hinner hts

theorem balanced_tokensOfContent {ts : List Token} {ns : List (Node String)} (hts : Balanced ts ns) :
    (ms : List (Node String)) → PlainContent ms →
      Balanced (tokensOfContent Token.whole ms ++ ts) (ms ++ ns)
  | [], _ => by
    rw [tokensOfContent]
    exact hts
  | m :: ms, hplain => by
    rw [PlainContent] at hplain
    rw [tokensOfContent, List.append_assoc]
    exact balanced_tokens (balanced_tokensOfContent hts ms hplain.2.2) m hplain.1

end

theorem ofTokens?_tokens {name : String} {content : List (Node String)}
    (h : (element name [] content).Plain) :
    ofTokens? ((element name [] content).tokens Token.eachChar) = some [.element name [] content] := by
  have hjoin : joinText ((element name [] content).tokens Token.eachChar ++ []) =
      (element name [] content).tokens Token.whole ++ [] :=
    joinText_tokens _ h fun htext => by cases htext
  rw [List.append_nil] at hjoin
  rw [ofTokens?, hjoin, ofTokensFrom?_eq_some_iff]
  exact balanced_tokens .nil _ h

end Node

end DocComment.Xml
