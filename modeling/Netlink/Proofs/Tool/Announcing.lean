import Netlink.Proofs.Conversation.Delivery
import Netlink.Tool.Run

/-! # What is written about an announcement

A message that can be read is shown as one whole event, as text or as one JSON document. Of an
interface that cannot be read JSON shows nothing, but the words that stand in front of the text have
been written when the interface is looked at, and cannot be taken back. -/

namespace Netlink.Tool.EventText

variable {namespaceId : Int32} {m : Message} {e : Error}

/-! ## Events -/

/-- The namespace that an event comes from, if that is known. -/
def origin (namespaceId : Int32) : String :=
  if 0 ≤ namespaceId then "[nsid " ++ toString namespaceId.toInt ++ "] " else ""

/-- One whole event as text. -/
inductive Whole (namespaceId : Int32) (m : Message) : String → Prop
  | here {l : Link} (type : m.header.type = MessageType.newLink)
      (read : (Link.read m.payload).result = .ok l) :
      Whole namespaceId m (origin namespaceId ++ LinkText.lines l)
  | gone {l : Link} (type : m.header.type = MessageType.delLink)
      (read : (Link.read m.payload).result = .ok l) :
      Whole namespaceId m (origin namespaceId ++ "Deleted " ++ LinkText.lines l)
  | other (notHere : m.header.type ≠ MessageType.newLink)
      (notGone : m.header.type ≠ MessageType.delLink) :
      Whole namespaceId m (origin namespaceId ++
        (name m.header.type ++ " (" ++ toString m.payload.length ++ " bytes)\n"))

/-- One whole event as a JSON document. -/
inductive WholeDocument (pretty : Bool) (namespaceId : Int32) (m : Message) : String → Prop
  | link {l : Link} (type : isLink m.header) (read : (Link.read m.payload).result = .ok l) :
      WholeDocument pretty namespaceId m (Json.document pretty
        (object namespaceId m.header [("link", .sorted (LinkText.members l))]))
  | other (type : ¬ isLink m.header) :
      WholeDocument pretty namespaceId m (Json.document pretty (object namespaceId m.header []))

/-- The message describes an interface, and reading the interface fails. -/
def Unreadable (m : Message) (e : Error) : Prop :=
  isLink m.header ∧ (Link.read m.payload).result = .error e

theorem isLink_iff {h : Header} :
    isLink h ↔ h.type = MessageType.newLink ∨ h.type = MessageType.delLink := by
  simp [isLink]

theorem Whole.readable {shown : String} (h : Whole namespaceId m shown) : ¬ Unreadable m e := by
  rintro ⟨hlink, hfails⟩
  cases h with
  | here _ read | gone _ read =>
    rw [read] at hfails
    cases hfails
  | other notHere notGone => exact (isLink_iff.mp hlink).elim notHere notGone

theorem WholeDocument.readable {pretty : Bool} {shown : String}
    (h : WholeDocument pretty namespaceId m shown) : ¬ Unreadable m e := by
  rintro ⟨hlink, hfails⟩
  cases h with
  | link _ read =>
    rw [read] at hfails
    cases hfails
  | other type => exact type hlink

/-- What stands in front of the message is its origin, and a word if an interface is gone. -/
theorem lead_eq (namespaceId : Int32) (h : Header) :
    lead namespaceId h =
      origin namespaceId ++ if h.type = MessageType.delLink then "Deleted " else "" := by
  rw [lead, origin?, origin]
  by_cases hknown : 0 ≤ namespaceId
  · rw [if_pos hknown, if_pos hknown]
    rfl
  · rw [if_neg hknown, if_neg hknown]

theorem lead_eq_empty_iff {h : Header} :
    lead namespaceId h = "" ↔ ¬ 0 ≤ namespaceId ∧ h.type ≠ MessageType.delLink := by
  rw [lead_eq, origin]
  by_cases hknown : 0 ≤ namespaceId <;> by_cases hgone : h.type = MessageType.delLink <;>
    simp [hknown, hgone]

/-! ## What comes of a message -/

/-- A message is shown whole, or its interface cannot be read and something is left. -/
inductive Shows (whole : String → Prop) (left : String) (m : Message) : Handled String → Prop
  | whole {shown : String} {log : List Event} (h : whole shown) :
      Shows whole left m ⟨(.ok (), shown), log⟩
  | cut {e : Error} {log : List Event} (h : Unreadable m e) :
      Shows whole left m ⟨(.error e, left), log⟩

namespace Shows

variable {whole : String → Prop} {left : String} {x : Handled String}

theorem reading {use : Link → String} (hlink : isLink m.header)
    (huse : ∀ l, (Link.read m.payload).result = .ok l → whole (use l)) :
    Shows whole left m (.reading (Link.read m.payload) left use) := by
  rw [Handled.reading]
  cases hread : (Link.read m.payload).result with
  | ok l => exact .whole (huse l hread)
  | error e => exact .cut ⟨hlink, hread⟩

theorem error_iff (h : Shows whole left m x)
    (hreadable : ∀ shown, whole shown → ¬ Unreadable m e) :
    x.value.1 = .error e ↔ Unreadable m e := by
  cases h with
  | whole hshown =>
    constructor
    · intro hfails
      cases hfails
    · intro hunreadable
      exact absurd hunreadable (hreadable _ hshown)
  | cut hread =>
    constructor
    · intro hfails
      cases hfails
      exact hread
    · intro hunreadable
      have hsame := hread.2.symm.trans hunreadable.2
      rw [Except.error.inj hsame]

theorem of_ok (h : Shows whole left m x) (hok : x.value.1 = .ok ()) : whole x.value.2 := by
  cases h with
  | whole hshown => exact hshown
  | cut => cases hok

theorem of_error (h : Shows whole left m x) (herror : x.value.1 = .error e) : x.value.2 = left := by
  cases h with
  | whole => cases herror
  | cut => rfl

end Shows

theorem text_shows (namespaceId : Int32) (m : Message) :
    Shows (Whole namespaceId m) (lead namespaceId m.header) m (text namespaceId m) := by
  rw [text]
  by_cases hlink : isLink m.header
  · rw [if_pos hlink]
    refine .reading hlink fun l hread => ?_
    rw [lead_eq]
    rcases isLink_iff.mp hlink with hhere | hgone
    · have hstays : m.header.type ≠ MessageType.delLink := by
        rw [hhere]
        decide
      rw [if_neg hstays, String.append_empty]
      exact .here hhere hread
    · rw [if_pos hgone]
      exact .gone hgone hread
  · rw [if_neg hlink]
    obtain ⟨hhere, hgone⟩ := not_or.mp (mt isLink_iff.mpr hlink)
    refine .whole ?_
    rw [lead_eq, if_neg hgone, String.append_empty]
    exact .other hhere hgone

theorem json_shows (pretty : Bool) (namespaceId : Int32) (m : Message) :
    Shows (WholeDocument pretty namespaceId m) "" m (json pretty namespaceId m) := by
  rw [json]
  by_cases hlink : isLink m.header
  · rw [if_pos hlink]
    exact .reading hlink fun l hread => .link hlink hread
  · rw [if_neg hlink]
    exact .whole (.other hlink)

/-- Both forms read the message in the same way, so that one fails where the other does and both
report the same. -/
theorem json_eq_text (pretty : Bool) (namespaceId : Int32) (m : Message) :
    (json pretty namespaceId m).value.1 = (text namespaceId m).value.1 ∧
      (json pretty namespaceId m).log = (text namespaceId m).log := by
  rw [json, text]
  by_cases hlink : isLink m.header
  · rw [if_pos hlink, if_pos hlink, Handled.reading, Handled.reading]
    cases (Link.read m.payload).result with
    | ok l => exact ⟨rfl, rfl⟩
    | error e => exact ⟨rfl, rfl⟩
  · rw [if_neg hlink, if_neg hlink]
    exact ⟨rfl, rfl⟩

/-- One whole event has been written; or the interface cannot be read, and nothing has. -/
def WholeOrNothing (namespaceId : Int32) (m : Message) (x : Handled String) : Prop :=
  x.value.1 = .ok () ∧ Whole namespaceId m x.value.2 ∨
    ∃ e, x.value.1 = .error e ∧ Unreadable m e ∧ x.value.2 = ""

/-- **Text is written as it goes, JSON at the end.** On every message both forms come to the same result
and report the same, and they fail just with the failure to read the interface. A message that can
be read is shown as one whole event, or one whole document. Otherwise JSON has written nothing, and
text has written the origin and the word for an interface that is gone; so text shows whole events
or nothing unless an interface cannot be read whose origin is known or that is gone. -/
theorem text_whole_or_words_left (pretty : Bool) (namespaceId : Int32) (m : Message) :
    let t := text namespaceId m
    let j := json pretty namespaceId m
    (j.value.1 = t.value.1 ∧ j.log = t.log) ∧
      (∀ e, t.value.1 = .error e ↔ Unreadable m e) ∧
      (t.value.1 = .ok () →
        Whole namespaceId m t.value.2 ∧ WholeDocument pretty namespaceId m j.value.2) ∧
      (∀ e, t.value.1 = .error e → j.value.2 = "" ∧ t.value.2 =
        origin namespaceId ++ if m.header.type = MessageType.delLink then "Deleted " else "") ∧
      (WholeOrNothing namespaceId m t ↔
        ¬ ((∃ e, Unreadable m e) ∧
          (0 ≤ namespaceId ∨ m.header.type = MessageType.delLink))) := by
  intro t j
  have ht : Shows _ _ m t := text_shows namespaceId m
  have hj : Shows _ _ m j := json_shows pretty namespaceId m
  have hsame : j.value.1 = t.value.1 ∧ j.log = t.log := json_eq_text pretty namespaceId m
  have hfails (e : Error) : t.value.1 = .error e ↔ Unreadable m e :=
    ht.error_iff fun _ hwhole => hwhole.readable
  have hleft {e : Error} (herror : t.value.1 = .error e) :
      t.value.2 = lead namespaceId m.header := ht.of_error herror
  refine ⟨hsame, hfails, fun hok => ⟨ht.of_ok hok, hj.of_ok (hsame.1.trans hok)⟩,
    fun e herror => ⟨hj.of_error (hsame.1.trans herror), ?_⟩, ?_⟩
  · rw [hleft herror, lead_eq]
  constructor
  · rintro (⟨hok, -⟩ | ⟨e, herror, -, hnothing⟩) ⟨⟨e', hunreadable⟩, hwords⟩
    · have herror := (hfails e').mpr hunreadable
      rw [hok] at herror
      cases herror
    · rw [hleft herror] at hnothing
      obtain ⟨hunknown, hstays⟩ := lead_eq_empty_iff.mp hnothing
      exact hwords.elim hunknown hstays
  · intro hunless
    cases hresult : t.value.1 with
    | ok u => exact .inl ⟨hresult, ht.of_ok hresult⟩
    | error e =>
      have hunreadable := (hfails e).mp hresult
      have hsilent := not_or.mp fun hwords => hunless ⟨⟨e, hunreadable⟩, hwords⟩
      exact .inr ⟨e, hresult, hunreadable, (hleft hresult).trans (lead_eq_empty_iff.mpr hsilent)⟩

/-- An interface is gone, and the message has four bytes where a fixed part of sixteen should be. The word
stands there with nothing behind it. -/
theorem word_left_behind :
    let m : Message := {
      sender := 0
      header := ⟨20, MessageType.delLink, 0, 0, 0⟩
      bytes := [20, 0, 0, 0, 17, 0, 0, 0, 0, 0, 0, 0, 0, 0, 0, 0] ++ Wire.zeros 4 }
    (text (-1) m).value = (.error (.truncated 16 4), "Deleted ") ∧
      (json false (-1) m).value = (.error (.truncated 16 4), "") ∧
      ¬ WholeOrNothing (-1) m (text (-1) m) := by
  intro m
  have htext : (text (-1) m).value = (.error (.truncated 16 4), "Deleted ") := rfl
  refine ⟨htext, rfl, ?_⟩
  rintro (⟨hok, -⟩ | ⟨e, -, -, hnothing⟩)
  · rw [htext] at hok
    cases hok
  · rw [htext] at hnothing
    exact absurd hnothing (by decide)

/-! ## What monitoring writes -/

/-- What is written about messages, if `whole` says what is written about one that can be read and
`left` what is left of one that cannot: it is the last. -/
inductive Written (whole : Int32 → Message → String → Prop) (left : Int32 → Message → String) :
    List (Int32 × Message) → String → Option Error → Prop
  | nothing : Written whole left [] "" none
  | event {n : Int32 × Message} {ns : List (Int32 × Message)} {shown later : String}
      {stop : Option Error} (event : whole n.1 n.2 shown) (rest : Written whole left ns later stop) :
      Written whole left (n :: ns) (shown ++ later) stop
  | stopped {n : Int32 × Message} {ns : List (Int32 × Message)} {e : Error}
      (unreadable : Unreadable n.2 e) : Written whole left (n :: ns) (left n.1 n.2) (some e)

/-- What is one whole event in a style. -/
def wholeIn (style : Style) (namespaceId : Int32) (m : Message) : String → Prop :=
  if style.json then WholeDocument style.pretty namespaceId m else Whole namespaceId m

/-- What is left in a style of an event that cannot be shown. -/
def leftIn (style : Style) (namespaceId : Int32) (m : Message) : String :=
  if style.json then "" else lead namespaceId m.header

theorem render_shows (style : Style) (namespaceId : Int32) (m : Message) :
    Shows (wholeIn style namespaceId m) (leftIn style namespaceId m) m
      (render style namespaceId m) := by
  rw [wholeIn, leftIn, render]
  cases style.json with
  | true => exact json_shows style.pretty namespaceId m
  | false => exact text_shows namespaceId m

/-- One event behind another is added to what was written, up to the first that cannot be read. -/
theorem hand_listener (style : Style) (ns : List (Int32 × Message)) (shown : String) :
    ∃ more stop, Written (wholeIn style) (leftIn style) ns more stop ∧
      (listener style).hand ns shown = (stop.elim (.ok ()) .error, shown ++ more) := by
  induction ns generalizing shown with
  | nil =>
    refine ⟨"", none, .nothing, ?_⟩
    rw [String.append_empty]
    rfl
  | cons n ns ih =>
    have hn := render_shows style n.1 n.2
    obtain ⟨x, hx⟩ : ∃ x, render style n.1 n.2 = x := ⟨_, rfl⟩
    have hlistener : ((listener style) n.1 n.2 shown).value = (x.value.1, shown ++ x.value.2) := by
      rw [listener, hx]
    rw [hx] at hn
    rw [Listener.hand, hlistener]
    cases hn with
    | @whole event log hwhole =>
      obtain ⟨more, stop, hwritten, hhand⟩ := ih (shown ++ event)
      refine ⟨event ++ more, stop, .event hwhole hwritten, ?_⟩
      rw [← String.append_assoc]
      exact hhand
    | @cut e log hunreadable => exact ⟨_, some e, .stopped hunreadable, rfl⟩

/-- **Monitoring writes whole events, and at the end perhaps what is left of one.** It goes through the
messages of the datagrams up to the one that something is wrong with. If an interface among them
cannot be read, then that is the result and what is left of it comes last. -/
theorem monitor_writes {σ : Type} [Transport σ] (style : Style) (c : Connection σ) :
    let received := Transport.receipts c.state.config.timeout c.endpoint
    let heard := Listener.upTo (received.1.filterMap Receipt.datagram?) received.2
    ∃ shown stop,
      Written (wholeIn style) (leftIn style) (heard.1.flatMap Datagram.notices) shown stop ∧
        (Work.monitor style c).1 = (.error (stop.getD heard.2), Wire.Utf8.encode shown) := by
  intro received heard
  have hlisten := Listener.listen_eq (listener style) c ""
  obtain ⟨shown, stop, hwritten, hhand⟩ :=
    hand_listener style (heard.1.flatMap Datagram.notices) ""
  rw [String.empty_append] at hhand
  refine ⟨shown, stop, hwritten, ?_⟩
  have houtcome : (Connection.listen (listener style) "" c).1 =
      (.error (stop.getD heard.2), shown) := by
    rw [hlisten, Listener.outcome, hhand]
    cases stop with
    | none => rfl
    | some e => rfl
  obtain ⟨⟨outcome, c'⟩, hlistened⟩ : ∃ x, Connection.listen (listener style) "" c = x := ⟨_, rfl⟩
  rw [hlistened] at houtcome
  obtain rfl : outcome = _ := houtcome
  rw [Work.monitor, hlistened]

end Netlink.Tool.EventText
