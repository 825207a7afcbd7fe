import DialPass.Telephony.Twiml
/-!
# The legs' documents (api/voice.py:20-57, telephony/twilio_client.py:45-60)

`serve` is what the server answers a leg that has been answered, and `follow` what Twilio does next with a document:
it opens a stream, or fetches another. `follow_serve` and `follow_pressDigits` put the two together: a leg is led to a
stream of the group its url names, and back there after a keypress.
-/

namespace DialPass.Twiml

open Xml

/-- `_media_ws_url` (voice.py:20). -/
def mediaWsUrl (publicBaseUrl : List Char) : List Char :=
  Text.replace "http://".toList "ws://".toList (Text.replace "https://".toList "wss://".toList publicBaseUrl) ++
    "/media".toList

/-- voice.py:50 -/
def joinIntro : List Char :=
  "This is DialPass. Stay on the line — I'll connect you the moment someone picks up.".toList

/-- `voice_twiml` (voice.py:27). -/
def voiceTwiml (base group : List Char) : List Char := connectStream (mediaWsUrl base) group "agent".toList none

/-- `join_twiml` (voice.py:36). -/
def joinTwiml (base group : List Char) : List Char := connectStream (mediaWsUrl base) group "user".toList (some joinIntro)

/-- The two routes of a leg; without a `group` they answer 422 (voice.py:26, voice.py:35). -/
def serve (base url : List Char) : Option (List Char) :=
  match Url.param "group".toList url with
  | none => none
  | some group =>
    if Url.target url = base ++ "/twiml/voice".toList then some (voiceTwiml base group)
    else if Url.target url = base ++ "/twiml/join".toList then some (joinTwiml base group)
    else none

/-! ## What Twilio does with a document -/

/-- The verb that ends a document: a stream with its parameters, or the url of the next document. -/
inductive Next where
  | stream (url : List Char) (parameters : List (List Char × List Char))
  | fetch (url : List Char)

/-- The attributes and children of the elements of that name. -/
def elements (name : List Char) (ns : List Node) : List (Attrs × List Node) :=
  ns.filterMap fun
    | .element n as inside => if n = name then some (as, inside) else none
    | .char _ => none

/-- The stream of a `<Connect>`. -/
def streamOf (inside : List Node) : Option Next := do
  let (as, ps) ← (elements "Stream".toList inside).head?
  let url ← as.lookup "url".toList
  let parameters ← (elements "Parameter".toList ps).mapM fun (as, _) => do
    return (← as.lookup "name".toList, ← as.lookup "value".toList)
  return .stream url parameters

def charsOf (inside : List Node) : Option (List Char) :=
  inside.mapM fun
    | .char c => some c
    | .element .. => none

/-- The verbs in their order; `<Say>`, `<Play>` and `<Pause>` go on to the next. -/
def verbs : List Node → Option Next
  | [] => none
  | .char _ :: ns => verbs ns
  | .element name _ inside :: ns =>
    if name ∈ ["Say".toList, "Play".toList, "Pause".toList] then verbs ns
    else if name = "Connect".toList then streamOf inside
    else if name = "Redirect".toList then (charsOf inside).map .fetch
    else none

def follow (document : List Char) : Option Next :=
  match parse document with
  | some (.element _ _ ns) => verbs ns
  | _ => none

theorem charsOf_text (s : List Char) : charsOf (text s) = some s := by
  induction s with
  | nil => rfl
  | cons c s ih =>
    rw [text, List.map_cons, charsOf, List.mapM_cons]
    show (do let rest ← charsOf (text s); pure (c :: rest)) = _
    rw [ih]
    rfl

theorem verbs_sayTree (intro : Option (List Char)) (ns : List Node) : verbs (sayTree intro ++ ns) = verbs ns := by
  unfold sayTree
  cases intro with
  | none => rfl
  | some line =>
    simp only
    split
    · rfl
    · rfl

theorem verbs_streamTree (url group role : List Char) (intro : Option (List Char)) :
    verbs (sayTree intro ++ [.element "Connect".toList [] [.element "Stream".toList [("url".toList, url)]
        [parameter "group".toList group, parameter "role".toList role]]]) =
      some (.stream url [("group".toList, group), ("role".toList, role)]) := by
  rw [verbs_sayTree]
  rfl

theorem follow_connectStream {url group role : List Char} {intro : Option (List Char)}
    (hu : ∀ c ∈ url, isChar c = true) (hg : ∀ c ∈ group, isChar c = true) (hr : ∀ c ∈ role, isChar c = true)
    (hi : ∀ line, intro = some line → ∀ c ∈ line, isChar c = true) :
    follow (connectStream url group role intro) =
      some (.stream url [("group".toList, group), ("role".toList, role)]) := by
  rw [follow, parse_connectStream hu hg hr hi, streamTree]
  exact verbs_streamTree url group role _

/-- A keypress leads to its url. -/
theorem follow_pressDigits {digits url : List Char} (h : Verbatim url) :
    follow (pressDigits digits url) = some (.fetch url) := by
  have hverbs : ∀ cs, verbs [.element "Play".toList [("digits".toList, 'w' :: safe digits)] [],
      .element "Pause".toList [("length".toList, ['1'])] [], .element "Redirect".toList [] cs] =
      (charsOf cs).map .fetch := fun cs => rfl
  rw [follow, parse_pressDigits_iff.2 h, pressTree]
  simp only
  rw [hverbs, charsOf_text]
  rfl

/-! ## From a url to its stream -/

theorem isChar_mediaWsUrl {base : List Char} (h : ∀ c ∈ base, isChar c = true) :
    ∀ c ∈ mediaWsUrl base, isChar c = true := by
  have hws : ∀ c ∈ "ws://".toList, isChar c = true := by simp [isChar]
  have hwss : ∀ c ∈ "wss://".toList, isChar c = true := by simp [isChar]
  have hmedia : ∀ c ∈ "/media".toList, isChar c = true := by simp [isChar]
  intro c hc
  rcases List.mem_append.1 hc with hc | hc
  · rcases Text.mem_replace hc with hc | hc
    · exact hws c hc
    · rcases Text.mem_replace hc with hc | hc
      · exact hwss c hc
      · exact h c hc
  · exact hmedia c hc

/-- The base url and the groups that `create_call` draws (calls.py:57): `dialpass-` and 12 hex digits. -/
def Issued (group : List Char) : Prop :=
  ∃ hex : List Char, hex.length = 12 ∧ (∀ d ∈ hex, d ∈ "0123456789abcdef".toList) ∧ group = "dialpass-".toList ++ hex

/-- The public base url may stand in a url and in XML as it is. -/
structure Public (base : List Char) : Prop where
  text : Verbatim base
  path : '?' ∉ base ∧ '#' ∉ base

theorem hasEscape_of_not_mem {s : List Char} (h : '%' ∉ s) : Url.hasEscape s = false := by
  induction s with
  | nil => rfl
  | cons c s ih =>
    have hc : c ≠ '%' := fun hc => h (hc ▸ List.mem_cons_self)
    rw [Url.hasEscape]
    · exact ih fun hs => h (List.mem_cons_of_mem _ hs)
    · intro x y t hx
      exact absurd hx hc

/-- Such groups can be sent. -/
theorem Issued.sendable {base group : List Char} (hb : Public base) (hg : Issued group) : Sendable base group := by
  obtain ⟨hex, -, hhex, rfl⟩ := hg
  have hall : ("dialpass-".toList ++ "0123456789abcdef".toList).all (fun c =>
      isChar c && !("<&\r".toList ++ ">#+%".toList).contains c) = true := by rfl
  have hplain : ∀ c ∈ "dialpass-".toList ++ "0123456789abcdef".toList,
      isChar c = true ∧ c ∉ "<&\r".toList ++ ">#+%".toList := fun c hc => by
    have h := List.all_eq_true.1 hall c hc
    rw [Bool.and_eq_true, Bool.not_eq_true', List.contains_eq_mem, decide_eq_false_iff_not] at h
    exact h
  have hchars : ∀ c ∈ "dialpass-".toList ++ hex, isChar c = true ∧ c ∉ "<&\r".toList ++ ">#+%".toList := by
    intro c hc
    rcases List.mem_append.1 hc with hc | hc
    · exact hplain c (List.mem_append_left _ hc)
    · exact hplain c (List.mem_append_right _ (hhex c hc))
  have hnot : ∀ c ∈ ">#+%".toList, c ∉ "dialpass-".toList ++ hex := fun c hc hm =>
    (hchars c hm).2 (List.mem_append_right _ hc)
  refine ⟨hb.text, ⟨fun c hc => ⟨(hchars c hc).1, fun hm => (hchars c hc).2 (List.mem_append_left _ hm)⟩,
    fun hm => hnot '>' (by decide) (hm.subset (by decide))⟩, hb.path, hnot _ (by decide), hnot _ (by decide),
    hasEscape_of_not_mem (hnot _ (by decide))⟩

/-- The group a leg's url names arrives. -/
theorem target_param {base group path : List Char} (h : Sendable base group)
    (hpath : path = "/twiml/voice".toList ∨ path = "/twiml/join".toList) :
    Url.target (base ++ path ++ "?group=".toList ++ group) = base ++ path ∧
      Url.param "group".toList (base ++ path ++ "?group=".toList ++ group) = some group := by
  have hurl : base ++ path ++ "?group=".toList ++ group = (base ++ path) ++ '?' :: ("group".toList ++ '=' :: group) := by
    rw [List.append_assoc (base ++ path)]
    rfl
  have hplain : '?' ∉ base ++ path ∧ '#' ∉ base ++ path := by
    rcases hpath with rfl | rfl <;> simp [h.base_path]
  rw [hurl]
  exact ⟨Url.target_eq_iff.2 hplain, (Url.param_eq_iff hplain.1 hplain.2 (by simp) (by decide)
    h.group_text.not_mem.2.1).2 h.group_value⟩

/-- What either leg finds when it comes to its url. -/
theorem follow_serve {base group : List Char} (h : Sendable base group) :
    (serve base (base ++ "/twiml/voice".toList ++ "?group=".toList ++ group)).bind follow =
      some (.stream (mediaWsUrl base) [("group".toList, group), ("role".toList, "agent".toList)]) ∧
    (serve base (base ++ "/twiml/join".toList ++ "?group=".toList ++ group)).bind follow =
      some (.stream (mediaWsUrl base) [("group".toList, group), ("role".toList, "user".toList)]) := by
  have hbase := isChar_mediaWsUrl fun c hc => (h.base_text.1 c hc).1
  have hgroup : ∀ c ∈ group, isChar c = true := fun c hc => (h.group_text.1 c hc).1
  obtain ⟨hvoice, hparam⟩ := target_param h (.inl rfl)
  obtain ⟨hjoin, hparam'⟩ := target_param h (.inr rfl)
  have hne : base ++ "/twiml/join".toList ≠ base ++ "/twiml/voice".toList := by simp
  constructor
  · rw [serve, hparam, hvoice]
    simp only [if_true, Option.bind_some]
    exact follow_connectStream hbase hgroup (by simp [isChar]) (by simp)
  · rw [serve, hparam', hjoin]
    simp only [if_neg hne, if_true, Option.bind_some]
    have hintro : joinIntro.all isChar = true := by decide +kernel
    exact follow_connectStream hbase hgroup (by simp [isChar]) fun line hline => by
      rw [← Option.some.inj hline]
      exact List.all_eq_true.1 hintro

end DialPass.Twiml
