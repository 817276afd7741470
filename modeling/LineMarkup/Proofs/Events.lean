import LineMarkup.Proofs.NormalForm

/-!
# Walks through a tree

A walk through a node list meets the characters of its texts and the bounds of its spans
and links, in order. It tells apart what the tree says but not how its texts are cut, and
normal form is the canonical choice among the trees with the same walk: two lists have the
same normal form exactly if they have the same walk. So it makes no difference whether
parts of a list are brought to normal form before they are put together.
-/

namespace LineMarkup

/-- What a walk through a tree meets. -/
inductive Event where
  | char (c : Char)
  | openSpan (kind : SpanKind)
  | openLink
  /-- The label of a link is over and its address begins. -/
  | separator
  | close
  deriving DecidableEq, Repr

namespace Node

mutual

/-- The walk through a node. -/
def events : Node → List Event
  | .text content => content.toList.map .char
  | .span kind children => .openSpan kind :: (allEvents children ++ [.close])
  | .link label address =>
      .openLink :: (allEvents label ++ .separator :: (allEvents address ++ [.close]))

/-- The walk through a node list. -/
def allEvents : List Node → List Event
  | [] => []
  | node :: rest => node.events ++ allEvents rest

end

@[simp] theorem allEvents_nil : allEvents [] = [] := by
  rw [allEvents]

@[simp] theorem allEvents_cons (node : Node) (rest : List Node) :
    allEvents (node :: rest) = node.events ++ allEvents rest := by
  rw [allEvents]

@[simp] theorem allEvents_append (first second : List Node) :
    allEvents (first ++ second) = allEvents first ++ allEvents second := by
  induction first with
  | nil => rfl
  | cons node rest ih =>
      rw [List.cons_append, allEvents_cons, ih, allEvents_cons, List.append_assoc]

/-! ## The walk through a normal form -/

theorem allEvents_ofGathered (gathered : String) :
    allEvents (ofGathered gathered) = gathered.toList.map .char := by
  unfold ofGathered
  split
  next hempty =>
    have hnothing : gathered = "" := by simpa using hempty
    subst hnothing
    rfl
  next => rw [allEvents_cons, allEvents_nil, List.append_nil, events]

mutual

theorem events_normalizeBelow : (node : Node) → node.normalizeBelow.events = node.events
  | .text content => rfl
  | .span kind children => by
      rw [normalizeBelow, events, events, allEvents_normalizeFrom]
      rfl
  | .link label address => by
      rw [normalizeBelow, events, events, allEvents_normalizeFrom, allEvents_normalizeFrom]
      rfl

/-- The gathered text comes first, and nothing is lost of it or of the list. -/
theorem allEvents_normalizeFrom (gathered : String) : (nodes : List Node) →
    allEvents (normalizeFrom gathered nodes) = gathered.toList.map .char ++ allEvents nodes
  | [] => by
      rw [normalizeFrom, allEvents_ofGathered, allEvents_nil, List.append_nil]
  | .text content :: rest => by
      rw [normalizeFrom_text_cons, allEvents_normalizeFrom, String.toList_append, List.map_append,
        List.append_assoc, allEvents_cons, events]
  | .span kind children :: rest => by
      rw [normalizeFrom_cons_of_not_isText rfl, allEvents_append, allEvents_ofGathered,
        allEvents_cons, events_normalizeBelow, allEvents_normalizeFrom, allEvents_cons]
      rfl
  | .link label address :: rest => by
      rw [normalizeFrom_cons_of_not_isText rfl, allEvents_append, allEvents_ofGathered,
        allEvents_cons, events_normalizeBelow, allEvents_normalizeFrom, allEvents_cons]
      rfl

end

/-- Bringing a list to normal form does not change the walk through it. -/
theorem allEvents_normalize (nodes : List Node) : allEvents (normalize nodes) = allEvents nodes :=
  allEvents_normalizeFrom "" nodes

end Node

/-! ## The tree of a walk -/

/-- Take in one event of a walk that is read from its end. The lists whose end was read but
not yet their beginning are on a stack, the innermost on top. -/
def Event.takeIn : Event → List (List Node) → List (List Node)
  | .char c, nodes :: outer => (.ofChar c :: nodes) :: outer
  | .openSpan kind, children :: nodes :: outer => (.span kind children :: nodes) :: outer
  | .openLink, label :: address :: nodes :: outer => (.link label address :: nodes) :: outer
  | .separator, stack => [] :: stack
  | .close, stack => [] :: stack
  | _, stack => stack

theorem Event.takeIn_separator (stack : List (List Node)) :
    Event.separator.takeIn stack = [] :: stack := by
  rw [takeIn]

theorem Event.takeIn_close (stack : List (List Node)) :
    Event.close.takeIn stack = [] :: stack := by
  rw [takeIn]

namespace Node

theorem foldr_takeIn_chars (cs : List Char) (nodes : List Node) (outer : List (List Node)) :
    (cs.map Event.char).foldr Event.takeIn (nodes :: outer) = (ofChars cs ++ nodes) :: outer := by
  induction cs with
  | nil => rfl
  | cons c cs ih =>
      rw [List.map_cons, List.foldr_cons, ih]
      rfl

theorem split_cons (node : Node) (rest : List Node) :
    split (node :: rest) = split [node] ++ split rest := by
  rcases node.exists_eq_text_or_not_isText with ⟨content, rfl⟩ | htext
  · rw [split_text_cons, split_text_cons, split, List.append_nil]
  · rw [split_cons_of_not_isText htext, split_cons_of_not_isText htext, split]
    rfl

mutual

theorem foldr_takeIn_events (nodes : List Node) (outer : List (List Node)) : (node : Node) →
    node.events.foldr Event.takeIn (nodes :: outer) = (split [node] ++ nodes) :: outer
  | .text content => by
      rw [events, foldr_takeIn_chars, split_text_cons, split, List.append_nil]
  | .span kind children => by
      -- The closing event puts an empty list on the stack, which the children then fill.
      have hchildren := foldr_takeIn_allEvents [] (nodes :: outer) children
      rw [List.append_nil] at hchildren
      rw [events, List.foldr_cons, List.foldr_append, List.foldr_cons, List.foldr_nil,
        Event.takeIn_close, hchildren, split_cons_of_not_isText rfl, splitBelow, split]
      rfl
  | .link label address => by
      have haddress := foldr_takeIn_allEvents [] (nodes :: outer) address
      have hlabel := foldr_takeIn_allEvents [] (split address :: nodes :: outer) label
      rw [List.append_nil] at haddress hlabel
      rw [events, List.foldr_cons, List.foldr_append, List.foldr_cons, List.foldr_append,
        List.foldr_cons, List.foldr_nil, Event.takeIn_close, haddress, Event.takeIn_separator,
        hlabel, split_cons_of_not_isText rfl, splitBelow, split]
      rfl

/-- Reading a walk from its end rebuilds the list that was walked through, with one text
for each character. -/
theorem foldr_takeIn_allEvents (tail : List Node) (outer : List (List Node)) :
    (nodes : List Node) → (allEvents nodes).foldr Event.takeIn (tail :: outer) =
      (split nodes ++ tail) :: outer
  | [] => by
      rw [allEvents_nil, split]
      rfl
  | node :: rest => by
      rw [allEvents_cons, List.foldr_append, foldr_takeIn_allEvents, foldr_takeIn_events,
        split_cons node rest, List.append_assoc]

end

/-- Lists with the same walk differ only in how their texts are cut. -/
theorem split_eq_of_allEvents_eq {first second : List Node}
    (h : allEvents first = allEvents second) : split first = split second := by
  have hfirst := foldr_takeIn_allEvents [] [] first
  have hsecond := foldr_takeIn_allEvents [] [] second
  rw [h, hsecond, List.append_nil, List.append_nil] at hfirst
  exact (List.singleton_inj.mp hfirst).symm

/-! ## The canonical form -/

/-- Lists have the same normal form exactly if the walks through them are the same. -/
theorem normalize_eq_iff_allEvents_eq {first second : List Node} :
    normalize first = normalize second ↔ allEvents first = allEvents second := by
  constructor
  · intro h
    rw [← allEvents_normalize first, h, allEvents_normalize]
  · intro h
    rw [normalize, normalize, ← normalizeFrom_split "" first, split_eq_of_allEvents_eq h,
      normalizeFrom_split]

/-- Normal form is canonical among the lists with the same walk. So it is reached in one step,
and it may be taken of the parts of a list or of the lists below a node first. -/
theorem normalize_canonical (first second : List Node) :
    allEvents (normalize first) = allEvents first ∧
      (normalize first = normalize second ↔ allEvents first = allEvents second) ∧
      normalize (normalize first) = normalize first ∧
      normalize (first ++ second) = normalize (normalize first ++ normalize second) ∧
      (∀ kind, normalize [.span kind first] = normalize [.span kind (normalize first)]) ∧
      normalize [.link first second] = normalize [.link (normalize first) (normalize second)] := by
  refine ⟨allEvents_normalize first, normalize_eq_iff_allEvents_eq, ?_, ?_, ?_, ?_⟩
  · exact normalize_eq_iff_allEvents_eq.mpr (allEvents_normalize first)
  · apply normalize_eq_iff_allEvents_eq.mpr
    simp only [allEvents_append, allEvents_normalize]
  · intro kind
    apply normalize_eq_iff_allEvents_eq.mpr
    simp only [allEvents_cons, events, allEvents_normalize]
  · apply normalize_eq_iff_allEvents_eq.mpr
    simp only [allEvents_cons, events, allEvents_normalize]

end Node

end LineMarkup
