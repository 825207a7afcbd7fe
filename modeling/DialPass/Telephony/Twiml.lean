import DialPass.Lib.Url
import DialPass.Lib.Xml.Quoting
import DialPass.Lib.Xml.Verbatim
/-!
# TwiML (telephony/twiml.py:11-31, telephony/twilio_client.py:45-60, api/media.py:131-147)

A group id comes from the query of `/twiml/voice`, goes into the stream's parameters and, when a digit is pressed,
into the url that leads back to `/twiml/voice`. `connect_stream` quotes it; `_wire_dtmf` and `press_digits` put it in
as it is. `faithful_iff` says for which values each document means what it should.
-/

namespace DialPass.Twiml

open Xml

/-- The line before the stream opens (twiml.py:19). -/
def say : Option (List Char) → List Char
  | some intro => if intro = [] then [] else "<Say>".toList ++ escape intro ++ "</Say>".toList
  | none => []

/-- `connect_stream` (twiml.py:11). -/
def connectStream (streamUrl groupId role : List Char) (intro : Option (List Char)) : List Char :=
  "<?xml version=\"1.0\" encoding=\"UTF-8\"?>".toList ++
  "<Response>".toList ++
  say intro ++
  "<Connect>".toList ++
  "<Stream url=".toList ++ quoteattr streamUrl ++ ">".toList ++
  "<Parameter name=\"group\" value=".toList ++ quoteattr groupId ++ "/>".toList ++
  "<Parameter name=\"role\" value=".toList ++ quoteattr role ++ "/>".toList ++
  "</Stream>".toList ++
  "</Connect>".toList ++
  "</Response>".toList

/-- What `press_digits` plays of what it is given (twilio_client.py:54). -/
def safe (digits : List Char) : List Char := digits.filter (· ∈ "0123456789*#w".toList)

/-- The document of `press_digits` (twilio_client.py:45). -/
def pressDigits (digits reconnectUrl : List Char) : List Char :=
  "<?xml version=\"1.0\" encoding=\"UTF-8\"?>".toList ++
    "<Response><Play digits=\"w".toList ++ safe digits ++ "\"/><Pause length=\"1\"/>".toList ++
    "<Redirect>".toList ++ reconnectUrl ++ "</Redirect></Response>".toList

/-- The `reconnect_url` of `_wire_dtmf` (media.py:131); without a base no digit is pressed. -/
def reconnectUrl (base group : List Char) : Option (List Char) :=
  if base = [] then none else some (base ++ "/twiml/voice?group=".toList ++ group)

/-! ## What the documents should say -/

def text (s : List Char) : List Node := s.map .char

def parameter (name value : List Char) : Node :=
  .element "Parameter".toList [("name".toList, name), ("value".toList, value)] []

def sayTree : Option (List Char) → List Node
  | some intro => if intro = [] then [] else [.element "Say".toList [] (text intro)]
  | none => []

def streamTree (streamUrl groupId role : List Char) (intro : Option (List Char)) : Node :=
  .element "Response".toList [] (sayTree intro ++
    [.element "Connect".toList []
      [.element "Stream".toList [("url".toList, streamUrl)]
        [parameter "group".toList groupId, parameter "role".toList role]]])

def pressTree (digits reconnectUrl : List Char) : Node :=
  .element "Response".toList []
    [.element "Play".toList [("digits".toList, 'w' :: safe digits)] [],
      .element "Pause".toList [("length".toList, ['1'])] [],
      .element "Redirect".toList [] (text reconnectUrl)]

/-- Every document says what it should, and the way back is to `/twiml/voice` for the same group. -/
structure Faithful (streamUrl group role : List Char) (intro : Option (List Char)) (digits base : List Char) :
    Prop where
  stream : parse (connectStream streamUrl group role intro) = some (streamTree streamUrl group role intro)
  press : ∀ url, reconnectUrl base group = some url → parse (pressDigits digits url) = some (pressTree digits url)
  back : ∀ url, reconnectUrl base group = some url →
    Url.target url = base ++ "/twiml/voice".toList ∧ Url.param "group".toList url = some group

/-- What may stand in the reconnect url as it is. -/
structure Sendable (base group : List Char) : Prop where
  base_text : Verbatim base
  group_text : Verbatim group
  base_path : '?' ∉ base ∧ '#' ∉ base
  group_value : '#' ∉ group ∧ '+' ∉ group ∧ Url.hasEscape group = false

/-! ## `connect_stream` -/

/-- All after the intro. -/
def connect (streamUrl groupId role : List Char) : List Char :=
  "<Connect>".toList ++ "<Stream url=".toList ++ quoteattr streamUrl ++ ">".toList ++
  ("<Parameter name=\"group\" value=".toList ++ quoteattr groupId ++ "/>".toList) ++
  ("<Parameter name=\"role\" value=".toList ++ quoteattr role ++ "/>".toList) ++
  ("</Stream>".toList ++ "</Connect>".toList ++ "</Response>".toList)

theorem connectStream_eq (streamUrl groupId role : List Char) (intro : Option (List Char)) :
    connectStream streamUrl groupId role intro =
      declaration ++ ("<Response>".toList ++ (say intro ++ connect streamUrl groupId role)) := by
  unfold connectStream connect
  generalize say intro = a
  simp only [List.append_assoc]
  rfl

theorem run_parameter (opening name : List Char) {value : List Char} (hv : ∀ c ∈ value, isChar c = true)
    (h : run (3, .content 0) opening =
      some ((3, .attrVal "Parameter".toList [("name".toList, name)] "value".toList), [])) :
    run (3, .content 0) (opening ++ quoteattr value ++ "/>".toList) =
      some ((3, .content 0), [.empty "Parameter".toList [("name".toList, name), ("value".toList, value)]]) := by
  have hvalue := run_quoteattr hv 3 "Parameter".toList [("name".toList, name)] "value".toList (by simp)
  have hclose : ∀ as, run (3, .afterValue "Parameter".toList as) "/>".toList =
      some ((3, .content 0), [.empty "Parameter".toList as]) := fun as => by rfl
  exact run_trans (run_trans h hvalue) (hclose _)

theorem run_connect {streamUrl groupId role : List Char} (hu : ∀ c ∈ streamUrl, isChar c = true)
    (hg : ∀ c ∈ groupId, isChar c = true) (hr : ∀ c ∈ role, isChar c = true) :
    run (1, .content 0) (connect streamUrl groupId role) =
      some ((0, .content 0), [.start "Connect".toList [], .start "Stream".toList [("url".toList, streamUrl)],
        .empty "Parameter".toList [("name".toList, "group".toList), ("value".toList, groupId)],
        .empty "Parameter".toList [("name".toList, "role".toList), ("value".toList, role)],
        .stop "Stream".toList, .stop "Connect".toList, .stop "Response".toList]) := by
  have hconnect : run (1, .content 0) "<Connect>".toList = some ((2, .content 0), [.start "Connect".toList []]) := by
    rfl
  have hstream : run (2, .content 0) "<Stream url=".toList =
      some ((2, .attrVal "Stream".toList [] "url".toList), []) := by rfl
  have hurl := run_quoteattr hu 2 "Stream".toList [] "url".toList (by simp)
  have hopen : ∀ as, run (2, .afterValue "Stream".toList as) ">".toList =
      some ((3, .content 0), [.start "Stream".toList as]) := fun as => by rfl
  have hgroup := run_parameter "<Parameter name=\"group\" value=".toList "group".toList hg (by rfl)
  have hrole := run_parameter "<Parameter name=\"role\" value=".toList "role".toList hr (by rfl)
  have hend : run (3, .content 0) ("</Stream>".toList ++ "</Connect>".toList ++ "</Response>".toList) =
      some ((0, .content 0), [.stop "Stream".toList, .stop "Connect".toList, .stop "Response".toList]) := by rfl
  have hbegin := run_trans (run_trans (run_trans hconnect hstream) hurl) (hopen _)
  exact run_trans (run_trans (run_trans hbegin hgroup) hrole) hend

/-- What is heard before the stream. -/
def sayEvents : Option (List Char) → List Xml.Event
  | some intro => if intro = [] then [] else .start "Say".toList [] :: (intro.map .char ++ [.stop "Say".toList])
  | none => []

theorem run_say {intro : Option (List Char)} (h : ∀ line, intro = some line → ∀ c ∈ line, isChar c = true) :
    run (1, .content 0) (say intro) = some ((1, .content 0), sayEvents intro) := by
  unfold say sayEvents
  cases intro with
  | none => rfl
  | some line =>
    simp only
    split
    · rfl
    · have hopen : run (1, .content 0) "<Say>".toList = some ((2, .content 0), [.start "Say".toList []]) := by rfl
      have hclose : ∀ k, run (2, .content k) "</Say>".toList = some ((1, .content 0), [.stop "Say".toList]) :=
        fun k => by rfl
      obtain ⟨k, hline⟩ := run_escape (h line rfl) 1 0
      have h := run_trans (run_trans hopen hline) (hclose k)
      rw [h]
      simp

theorem sayEvents_expand (intro : Option (List Char)) :
    (sayEvents intro).flatMap Xml.Event.expand = eventsAll (sayTree intro) := by
  unfold sayEvents sayTree
  cases intro with
  | none => rfl
  | some line =>
    simp only
    split
    · rfl
    · simp [eventsAll, Node.events, Xml.Event.expand, text, eventsAll_map_char, flatMap_expand_map_char]

theorem cr_not_mem_connect (streamUrl groupId role : List Char) : '\r' ∉ connect streamUrl groupId role := by
  have hq := cr_not_mem_quoteattr
  unfold connect
  simp only [List.mem_append, not_or, hq, not_false_eq_true, and_true]
  decide

theorem connect_eq_cons (streamUrl groupId role : List Char) : ∃ t, connect streamUrl groupId role = '<' :: t := by
  have h : "<Connect>".toList = '<' :: "Connect>".toList := by rfl
  unfold connect
  rw [h]
  simp only [List.cons_append, List.cons.injEq, true_and, exists_eq']

theorem normalizeLines_say (intro : Option (List Char)) :
    normalizeLines (say intro) = say (intro.map normalizeLines) := by
  cases intro with
  | none => rfl
  | some line =>
    simp only [say, Option.map_some, normalizeLines_eq_nil]
    split
    · rfl
    · have hclose : "</Say>".toList = '<' :: "/Say>".toList := by rfl
      have htail : normalizeLines "</Say>".toList = "</Say>".toList := normalizeLines_eq_self.2 (by decide)
      rw [List.append_assoc, List.append_assoc, normalizeLines_append (by decide), hclose,
        normalizeLines_append_cons (by decide), normalizeLines_escape, ← hclose, htail]

/-- Of all that is put into the document only the line ends of the intro may change. -/
theorem normalizeLines_connectStream (streamUrl groupId role : List Char) (intro : Option (List Char)) :
    normalizeLines ("<Response>".toList ++ (say intro ++ connect streamUrl groupId role)) =
      "<Response>".toList ++ (say (intro.map normalizeLines) ++ connect streamUrl groupId role) := by
  obtain ⟨t, ht⟩ := connect_eq_cons streamUrl groupId role
  rw [normalizeLines_append (by decide), ht, normalizeLines_append_cons (by decide), normalizeLines_say, ← ht,
    normalizeLines_eq_self.2 (cr_not_mem_connect streamUrl groupId role)]

theorem parse_connectStream {streamUrl group role : List Char} {intro : Option (List Char)}
    (hu : ∀ c ∈ streamUrl, isChar c = true) (hg : ∀ c ∈ group, isChar c = true) (hr : ∀ c ∈ role, isChar c = true)
    (hi : ∀ line, intro = some line → ∀ c ∈ line, isChar c = true) :
    parse (connectStream streamUrl group role intro) =
      some (streamTree streamUrl group role (intro.map normalizeLines)) := by
  have hi' : ∀ line, intro.map normalizeLines = some line → ∀ c ∈ line, isChar c = true := by
    intro line hline
    obtain ⟨line, rfl, rfl⟩ := Option.map_eq_some_iff.1 hline
    exact isChar_normalizeLines (hi line rfl)
  have hopen : run (0, .content 0) "<Response>".toList = some ((1, .content 0), [.start "Response".toList []]) := by
    rfl
  have hrun := run_trans hopen (run_trans (run_say hi') (run_connect hu hg hr))
  rw [connectStream_eq, parse_declared, normalizeLines_connectStream, lex_eq_some.2 ⟨0, hrun⟩, Option.bind_some,
    build_iff]
  refine ⟨fun c => by simp [streamTree], ?_⟩
  rw [List.flatMap_append, List.flatMap_append, sayEvents_expand, streamTree, Node.events, eventsAll_append]
  simp [Xml.Event.expand, eventsAll, Node.events, parameter]

/-! ## `press_digits` -/

theorem run_safe (digits : List Char) (depth : Nat) (name : List Char) (as : Attrs) (key acc : List Char) :
    run (depth, .value name as key '"' acc) (safe digits) =
      some ((depth, .value name as key '"' (acc ++ safe digits)), []) := by
  have hkeys : ∀ c ∈ "0123456789*#w".toList,
      isChar c = true ∧ c ≠ '"' ∧ c ≠ '<' ∧ c ≠ '&' ∧ isSpace c = false := by simp [isChar, isSpace]
  have hq : ∀ c ∈ safe digits, Quotes '"' (fun c => [c]) c := fun c hc => by
    obtain ⟨h₁, h₂, h₃, h₄, h₅⟩ := hkeys c (by simpa using List.of_mem_filter hc)
    exact quotes_self h₁ h₂ h₃ h₄ (by simp [h₅])
  have h := run_flatMap_quotes hq depth name as key acc
  rwa [List.flatMap_singleton'] at h

/-- `press_digits` up to the url. -/
def press (digits : List Char) : List Char :=
  "<Response><Play digits=\"w".toList ++ safe digits ++ "\"/><Pause length=\"1\"/><Redirect>".toList

def pressEvents (digits : List Char) : List Xml.Event :=
  [.start "Response".toList [], .empty "Play".toList [("digits".toList, 'w' :: safe digits)],
    .empty "Pause".toList [("length".toList, ['1'])], .start "Redirect".toList []]

theorem run_press (digits : List Char) :
    run (0, .content 0) (press digits) = some ((2, .content 0), pressEvents digits) := by
  have hopen : run (0, .content 0) "<Response><Play digits=\"w".toList =
      some ((1, .value "Play".toList [] "digits".toList '"' ['w']), [.start "Response".toList []]) := by rfl
  have hclose : ∀ s, run (1, .value "Play".toList [] "digits".toList '"' s)
      "\"/><Pause length=\"1\"/><Redirect>".toList =
      some ((2, .content 0), [.empty "Play".toList [("digits".toList, s)],
        .empty "Pause".toList [("length".toList, ['1'])], .start "Redirect".toList []]) := fun s => by rfl
  exact run_trans (run_trans hopen (run_safe digits 1 "Play".toList [] "digits".toList ['w'])) (hclose _)

theorem cr_not_mem_press (digits : List Char) : '\r' ∉ press digits := by
  have hsafe : '\r' ∉ safe digits := fun h => absurd (List.of_mem_filter h) (by decide)
  unfold press
  simp only [List.mem_append, not_or, hsafe, not_false_eq_true, and_true]
  decide

theorem pressDigits_eq (digits url : List Char) :
    pressDigits digits url = declaration ++ (press digits ++ (url ++ "</Redirect></Response>".toList)) := by
  have h : "<Response><Play digits=\"w".toList ++ safe digits ++ "\"/><Pause length=\"1\"/>".toList ++
      "<Redirect>".toList = press digits := by
    rw [List.append_assoc]
    rfl
  rw [← h]
  unfold pressDigits
  simp only [List.append_assoc]
  rfl

/-- The document says what it should just if the url needs no escape. -/
theorem parse_pressDigits_iff {digits url : List Char} :
    parse (pressDigits digits url) = some (pressTree digits url) ↔ Verbatim url := by
  have hevents : (pressTree digits url).events = (pressEvents digits).flatMap Xml.Event.expand ++
      (url.map .char ++ [.stop "Redirect".toList, .stop "Response".toList]) := by
    simp [pressTree, pressEvents, Node.events, eventsAll, Xml.Event.expand, text, eventsAll_map_char]
  have hclose : ∀ k, run (2, .content k) "</Redirect></Response>".toList =
      some ((0, .content 0), [.stop "Redirect".toList, .stop "Response".toList]) := fun k => by rfl
  rw [← run_text_iff (t := "/Redirect></Response>".toList) (by decide) (by decide) hclose, pressDigits_eq,
    parse_declared, normalizeLines_append (cr_not_mem_press digits), Option.bind_eq_some_iff]
  constructor
  · rintro ⟨es, hlex, hbuild⟩
    obtain ⟨k, hrun⟩ := lex_eq_some.1 hlex
    rw [run_append_of (run_press digits)] at hrun
    obtain ⟨⟨y, fs⟩, htext, h⟩ := Option.map_eq_some_iff.1 hrun
    cases h
    have hfs : (pressEvents digits ++ fs).flatMap Xml.Event.expand = (pressTree digits url).events :=
      (build_iff.1 hbuild).2
    rw [List.flatMap_append, hevents, List.append_cancel_left_eq] at hfs
    obtain rfl := eq_of_flatMap_expand hfs (by simp)
    exact ⟨k, htext⟩
  · rintro ⟨k, htext⟩
    refine ⟨_, lex_eq_some.2 ⟨k, run_trans (run_press digits) htext⟩,
      build_iff.2 ⟨fun c => by simp [pressTree], ?_⟩⟩
    rw [List.flatMap_append, hevents, List.flatMap_append, flatMap_expand_map_char]
    rfl

/-! ## All of it -/

theorem streamTree_normalizeLines_iff {streamUrl group role : List Char} {intro : Option (List Char)} :
    streamTree streamUrl group role (intro.map normalizeLines) = streamTree streamUrl group role intro ↔
      ∀ line, intro = some line → '\r' ∉ line := by
  have hinj : ∀ s t : List Char, text s = text t ↔ s = t := fun s t =>
    (List.map_injective_iff.2 fun a b h => Node.char.inj h).eq_iff
  rw [streamTree, streamTree, Node.element.injEq]
  simp only [true_and, List.append_cancel_right_eq]
  cases intro with
  | none => simp [sayTree]
  | some line =>
    simp only [Option.map_some, sayTree, normalizeLines_eq_nil, Option.some.injEq, forall_eq',
      ← normalizeLines_eq_self]
    split
    · rename_i hnil
      simp [hnil, normalizeLines]
    · simp [hinj]

theorem reconnectUrl_of_ne {base : List Char} (h : base ≠ []) (group : List Char) :
    reconnectUrl base group = some (base ++ "/twiml/voice?group=".toList ++ group) := if_neg h

theorem reconnectUrl_eq {base group url : List Char} (h : reconnectUrl base group = some url) :
    url = (base ++ "/twiml/voice".toList) ++ '?' :: ("group".toList ++ '=' :: group) := by
  unfold reconnectUrl at h
  split_ifs at h
  rw [← Option.some.inj h, List.append_assoc, List.append_assoc]
  rfl

theorem verbatim_reconnectUrl_iff {base group url : List Char} (h : reconnectUrl base group = some url) :
    Verbatim url ↔ Verbatim base ∧ Verbatim group := by
  have hmiddle : Verbatim "twiml/voice?group".toList := ⟨by simp [isChar], by decide⟩
  have hurl : url = base ++ '/' :: ("twiml/voice?group".toList ++ '=' :: group) := by
    rw [reconnectUrl_eq h, List.append_assoc]
    rfl
  rw [hurl, verbatim_append_cons (by decide) (by decide), verbatim_append_cons (by decide) (by decide)]
  exact and_congr_right fun _ => and_iff_right hmiddle

/-- The way back leads to the same group. -/
theorem back_iff {base group url : List Char} (h : reconnectUrl base group = some url) (hamp : '&' ∉ group) :
    (Url.target url = base ++ "/twiml/voice".toList ∧ Url.param "group".toList url = some group) ↔
      ('?' ∉ base ∧ '#' ∉ base) ∧ '#' ∉ group ∧ '+' ∉ group ∧ Url.hasEscape group = false := by
  have hpath : ('?' ∉ base ++ "/twiml/voice".toList ∧ '#' ∉ base ++ "/twiml/voice".toList) ↔
      '?' ∉ base ∧ '#' ∉ base := by simp
  rw [reconnectUrl_eq h, Url.target_eq_iff, hpath]
  refine and_congr_right fun hb => ?_
  obtain ⟨hq, hf⟩ := hpath.2 hb
  exact Url.param_eq_iff hq hf (by simp) (by decide) hamp

/-- **`faithful_iff`**: the stream's document keeps all but a carriage return in the intro; the documents that press
digits are right just if the base and the group may stand in a url and in XML as they are. -/
theorem faithful_iff {streamUrl group role digits base : List Char} {intro : Option (List Char)}
    (hu : ∀ c ∈ streamUrl, isChar c = true) (hg : ∀ c ∈ group, isChar c = true) (hr : ∀ c ∈ role, isChar c = true)
    (hi : ∀ line, intro = some line → ∀ c ∈ line, isChar c = true) :
    Faithful streamUrl group role intro digits base ↔
      (∀ line, intro = some line → '\r' ∉ line) ∧ (base ≠ [] → Sendable base group) := by
  have hstream : parse (connectStream streamUrl group role intro) = some (streamTree streamUrl group role intro) ↔
      ∀ line, intro = some line → '\r' ∉ line := by
    rw [parse_connectStream hu hg hr hi, Option.some_inj, streamTree_normalizeLines_iff]
  constructor
  · rintro ⟨hs, hp, hb⟩
    refine ⟨hstream.1 hs, fun hne => ?_⟩
    have hurl := reconnectUrl_of_ne hne group
    obtain ⟨hbase, hgroup⟩ := (verbatim_reconnectUrl_iff hurl).1 (parse_pressDigits_iff.1 (hp _ hurl))
    obtain ⟨hpath, hvalue⟩ := (back_iff hurl hgroup.not_mem.2.1).1 (hb _ hurl)
    exact ⟨hbase, hgroup, hpath, hvalue⟩
  · rintro ⟨hs, hbase⟩
    have hsend : ∀ url, reconnectUrl base group = some url → Sendable base group := fun url hurl =>
      hbase fun hnil => by simp [reconnectUrl, hnil] at hurl
    refine ⟨hstream.2 hs, fun url hurl => ?_, fun url hurl => ?_⟩
    · have hg := hsend url hurl
      exact parse_pressDigits_iff.2 ((verbatim_reconnectUrl_iff hurl).2 ⟨hg.base_text, hg.group_text⟩)
    · have hg := hsend url hurl
      exact (back_iff hurl hg.group_text.not_mem.2.1).2 ⟨hg.base_path, hg.group_value⟩

/-- The group ids that the program makes itself. -/
theorem faithful_issued :
    Faithful "wss://dialpass.test/media".toList "dialpass-5f0e37ab12".toList "user".toList
      (some "Stay <on> the line.".toList) "1#".toList "https://dialpass.test".toList :=
  (faithful_iff (by simp [isChar]) (by simp [isChar]) (by simp [isChar]) (by simp [isChar])).2
    ⟨by simp, fun _ => ⟨⟨by simp [isChar], by decide⟩, ⟨by simp [isChar], by decide⟩, by decide, by decide⟩⟩

/-- The end of a group id that hangs up. -/
def hangup : List Char := "</Redirect><Hangup/><Redirect>".toList

theorem parse_pressDigits_hangup {url : List Char} (digits : List Char) (hurl : Verbatim url) :
    parse (pressDigits digits (url ++ hangup)) = some (.element "Response".toList []
      [.element "Play".toList [("digits".toList, 'w' :: safe digits)] [],
        .element "Pause".toList [("length".toList, ['1'])] [],
        .element "Redirect".toList [] (text url),
        .element "Hangup".toList [] [],
        .element "Redirect".toList [] []]) := by
  have hend : ∀ k, run (2, .content k) (hangup ++ "</Redirect></Response>".toList) =
      some ((0, .content 0), [.stop "Redirect".toList, .empty "Hangup".toList [], .start "Redirect".toList [],
        .stop "Redirect".toList, .stop "Response".toList]) := fun k => by rfl
  have hcr : '\r' ∉ url ++ (hangup ++ "</Redirect></Response>".toList) := by
    simp only [List.mem_append, not_or, hurl.not_mem.2.2, not_false_eq_true, true_and]
    decide
  rw [pressDigits_eq, parse_declared, normalizeLines_append (cr_not_mem_press digits), List.append_assoc,
    normalizeLines_eq_self.2 hcr, lex_eq_some.2 ⟨0, run_trans (run_press digits) (run_text hurl hend)⟩,
    Option.bind_some, build_iff]
  refine ⟨fun c => by simp, ?_⟩
  simp [pressEvents, Node.events, eventsAll, Xml.Event.expand, text, eventsAll_map_char, flatMap_expand_map_char]

/-- The group closes the redirect and adds a verb of its own. -/
theorem not_faithful_hangup :
    (∀ c ∈ 'g' :: hangup, isChar c = true) ∧
    ¬ Faithful "wss://dialpass.test/media".toList ('g' :: hangup) "agent".toList none ['1']
      "https://dialpass.test".toList := by
  refine ⟨List.all_eq_true.1 (by rfl), fun h => ?_⟩
  have hurl := parse_pressDigits_iff.1 (h.press _ (reconnectUrl_of_ne (by decide) _))
  exact hurl.not_mem.1 (List.mem_append_right _ (by decide))

end DialPass.Twiml
