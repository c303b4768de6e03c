import Plaidify.HostedLink.Widget
import Plaidify.Lib.UrlEncoding

/-!
# A link page in a frame

The widget tells the page of the link its token and the origin of the host in the query of
the frame (`_createIframe` of `src/frontend/link.js`), and the SDK for React Native in that
of its web view (`src/sdk-js/src/react-native.ts`). The page reads them
(`src/frontend-next/src/config.ts`) and posts its events to the host
(`src/frontend-next/src/events.ts`).

`URL` is a parameter: `urlOrigin` is the origin of a text that it parses.
-/

namespace Plaidify.HostedLink.Widget

open AccessJobs (Dict)
open UrlEncoding

/-! ## The frame -/

/-- The theme of a link; an empty text for what is null. -/
structure Theme where
  accentColor : String := "#087f6b"
  bgColor : String := "#eef5ff"
  borderRadius : String := "28px"
  logo : String := ""

/-- `text.replace(/\/$/, "")`. -/
def dropSlash (text : String) : String :=
  String.ofList (if text.toList.getLast? = some '/' then text.toList.dropLast else text.toList)

/-- What `_createIframe` reads of a widget. -/
structure Config where
  serverUrl : String
  token : String
  theme : Theme := {}

def encodeURIComponent (text : String) : String :=
  String.ofList (writeText componentChar text)

/-- A parameter of the theme is left out if it is empty. -/
def themeParam (name value : String) : String :=
  if value = "" then "" else "&" ++ name ++ "=" ++ encodeURIComponent value

/-- The `src` of the frame that `_createIframe` makes in a window of this origin. -/
def iframeUrl (config : Config) (windowOrigin : String) : String :=
  dropSlash config.serverUrl ++ "/link?token=" ++ encodeURIComponent config.token ++
    "&origin=" ++ encodeURIComponent windowOrigin ++
    themeParam "accent" config.theme.accentColor ++ themeParam "bg" config.theme.bgColor ++
    themeParam "radius" config.theme.borderRadius ++ themeParam "logo" config.theme.logo

/-! ## The web view -/

/-- `PlaidifyReactNativeLinkConfig`; an empty text for what is undefined. -/
structure WebViewConfig where
  serverUrl : String
  token : String
  origin : String := ""
  theme : Theme

/-- The names and values that are not empty. -/
def present (pairs : List (String × String)) : List (String × String) :=
  pairs.filter fun p => p.2 != ""

def themeParams (theme : Theme) : List (String × String) :=
  present [("accent", theme.accentColor), ("bg", theme.bgColor), ("radius", theme.borderRadius),
    ("logo", theme.logo)]

/-- `buildPlaidifyHostedLinkUrl`, for a server without a query of its own. -/
def buildPlaidifyHostedLinkUrl (config : WebViewConfig) : String :=
  String.ofList (config.serverUrl.toList.rdropWhile (· = '/')) ++ "/link?" ++
    String.ofList (writeQuery formChar
      (("token", config.token) :: present [("origin", config.origin)] ++ themeParams config.theme))

/-! ## The page -/

/-- `location.search` of the page at this URL. -/
def search (url : String) : List Char :=
  match (url.toList.takeWhile (· ≠ '#')).dropWhile (· ≠ '?') with
  | [] | ['?'] => []
  | _ :: query => '?' :: parseQuery query

/-- `HostedLinkConfig`. -/
structure HostedLinkConfig where
  linkToken : Option String
  serverUrl : String
  parentOrigin : String
  inIframe : Bool

/-- `a || b`, for a text that may be null. -/
def textOr (a : Option String) (b : String) : String :=
  if a.getD "" = "" then b else a.getD ""

section

variable (replaced : Bytes → String) (urlOrigin : String → Option String)

/-- `readHostedLinkConfig`. -/
def readHostedLinkConfig (search : List Char) (origin referrer : String) (inIframe : Bool) :
    HostedLinkConfig :=
  let params := readQuery replaced (if search.head? = some '?' then search.tail else search)
  let serverUrl := dropSlash (textOr (params.lookup "server") origin)
  let fallback := if inIframe then serverUrl else "*"
  { linkToken := params.lookup "token"
    serverUrl
    parentOrigin :=
      textOr (params.lookup "origin")
        (if referrer = "" then fallback else (urlOrigin referrer).getD fallback)
    inIframe }

/-- The message of `postBridgeEvent`. -/
def bridgeMessage (event : String) (payload : Dict) : Dict :=
  payload.foldl Json.dictInsert [("source", .str "plaidify-link"), ("event", .str event)]

/-- What a window of this origin gets by `targetWindow.postMessage(message, targetOrigin)`
of a page. A target that is no URL throws, which `postBridgeEvent` ignores. -/
def postMessage (pageOrigin windowOrigin targetOrigin : String) (message : Dict) :
    Option MessageEvent :=
  if targetOrigin = "*" ∨ (targetOrigin = "/" ∧ pageOrigin = windowOrigin) ∨
      urlOrigin targetOrigin = some windowOrigin then
    some { data := .obj message, origin := pageOrigin }
  else none

/-- `postBridgeEvent` of a page that has no native bridge, to the window around it. -/
def postBridgeEvent (config : HostedLinkConfig) (pageOrigin windowOrigin event : String)
    (payload : Dict) : Option MessageEvent :=
  if config.inIframe then
    postMessage urlOrigin pageOrigin windowOrigin config.parentOrigin (bridgeMessage event payload)
  else none

end

/-! ## The query of the frame -/

theorem mem_dropSlash {text : String} {c : Char} (hc : c ∈ (dropSlash text).toList) :
    c ∈ text.toList := by
  rw [dropSlash, String.toList_ofList] at hc
  split at hc
  · exact List.mem_of_mem_dropLast hc
  · exact hc

theorem toList_encodeURIComponent (text : String) :
    (encodeURIComponent text).toList = writeText componentChar text := String.toList_ofList

/-- The query of the frame. -/
def iframeParams (config : Config) (windowOrigin : String) : List (String × String) :=
  ("token", config.token) :: ("origin", windowOrigin) :: themeParams config.theme

theorem flatMap_present (f : String × String → List Char) (name value : String)
    (pairs : List (String × String)) :
    (present ((name, value) :: pairs)).flatMap f =
      (if value = "" then [] else f (name, value)) ++ (present pairs).flatMap f := by
  unfold present
  rw [List.filter_cons]
  by_cases hvalue : value = ""
  · simp [hvalue]
  · simp [hvalue]

theorem toList_themeParam {name : String} (value : String)
    (hname : writeText componentChar name = name.toList) :
    (themeParam name value).toList =
      if value = "" then []
      else '&' :: (writeText componentChar name ++ '=' :: writeText componentChar value) := by
  unfold themeParam
  split
  · rfl
  · simp only [String.toList_append, toList_encodeURIComponent, hname]
    simp

theorem toList_iframeUrl (config : Config) (windowOrigin : String) :
    (iframeUrl config windowOrigin).toList = ((dropSlash config.serverUrl).toList ++ "/link".toList) ++
      '?' :: writeQuery componentChar (iframeParams config windowOrigin) := by
  have htoken : writeText componentChar "token" = "token".toList := by decide
  have horigin : writeText componentChar "origin" = "origin".toList := by decide
  have hempty : (present []).flatMap (fun q : String × String =>
      '&' :: (writeText componentChar q.1 ++ '=' :: writeText componentChar q.2)) = [] := rfl
  unfold iframeUrl iframeParams themeParams
  rw [writeQuery_cons, List.flatMap_cons, flatMap_present, flatMap_present, flatMap_present,
    flatMap_present, hempty]
  simp only [String.toList_append, toList_encodeURIComponent, htoken, horigin,
    toList_themeParam _ (show writeText componentChar "accent" = "accent".toList by decide),
    toList_themeParam _ (show writeText componentChar "bg" = "bg".toList by decide),
    toList_themeParam _ (show writeText componentChar "radius" = "radius".toList by decide),
    toList_themeParam _ (show writeText componentChar "logo" = "logo".toList by decide)]
  simp

/-- The names of a theme are its own. -/
theorem lookup_themeParams {name : String} (hname : name ∉ ["accent", "bg", "radius", "logo"])
    (theme : Theme) : (themeParams theme).lookup name = none := by
  rw [List.lookup_eq_none_iff]
  intro p hp
  have hmem : p.1 ∈ ["accent", "bg", "radius", "logo"] :=
    List.mem_map_of_mem (List.mem_filter.mp hp).1
  simp only [bne_iff_ne, ne_eq]
  rintro rfl
  exact hname hmem

theorem plain_link {base : List Char} (hquery : '?' ∉ base) (hhash : '#' ∉ base) :
    '?' ∉ base ++ "/link".toList ∧ '#' ∉ base ++ "/link".toList := by
  simp [hquery, hhash]

/-- A server without a query or a fragment of its own. -/
def Plain (serverUrl : String) : Prop :=
  '?' ∉ serverUrl.toList ∧ '#' ∉ serverUrl.toList

instance (serverUrl : String) : Decidable (Plain serverUrl) :=
  inferInstanceAs (Decidable (_ ∧ _))

section

variable {replaced : Bytes → String} {urlOrigin : String → Option String}
variable {origin referrer : String} {inIframe : Bool}

@[simp] theorem textOr_none (b : String) : textOr none b = b := rfl

theorem textOr_some {a : String} (ha : a ≠ "") (b : String) : textOr (some a) b = a := if_neg ha

/-- The page reads what was written after the path of its URL. -/
theorem readQuery_search {write : Char → List Char} (hwrite : Faithful write) {url : String}
    {base : List Char} {pairs : List (String × String)} (hpairs : pairs ≠ [])
    (hbase : '?' ∉ base ∧ '#' ∉ base) (hurl : url.toList = base ++ '?' :: writeQuery write pairs) :
    readQuery replaced (if (search url).head? = some '?' then (search url).tail else search url) =
      pairs := by
  have htake : url.toList.takeWhile (· ≠ '#') = url.toList := by
    rw [List.takeWhile_eq_self_iff]
    intro c hc
    rw [hurl] at hc
    have hne : c ≠ '#' := by
      rintro rfl
      rcases List.mem_append.mp hc with hc | hc
      · exact hbase.2 hc
      · rcases List.mem_cons.mp hc with hc | hc
        · cases hc
        · exact hash_not_mem_writeQuery hwrite _ hc
    simpa using hne
  -- the first question mark begins the query
  have hdrop : url.toList.dropWhile (· ≠ '?') = '?' :: writeQuery write pairs := by
    have hkept : ∀ c ∈ base, decide (c ≠ '?') = true := by
      intro c hc
      refine decide_eq_true ?_
      rintro rfl
      exact hbase.1 hc
    rw [hurl, List.dropWhile_append_of_pos hkept, List.dropWhile_cons]
    simp
  have hsearch : search url = '?' :: parseQuery (writeQuery write pairs) := by
    obtain ⟨p, rest, rfl⟩ := List.exists_cons_of_ne_nil hpairs
    rw [search, htake, hdrop, writeQuery_cons]
    simp
  rw [hsearch]
  exact readQuery_parseQuery replaced hwrite _

/-- What the page reads of a query that gives a token and an origin, and no server. -/
theorem readHostedLinkConfig_eq {query : List Char} {pairs : List (String × String)}
    {token windowOrigin : String}
    (hread : readQuery replaced (if query.head? = some '?' then query.tail else query) = pairs)
    (htoken : pairs.lookup "token" = some token) (hserver : pairs.lookup "server" = none)
    (horigin : pairs.lookup "origin" = some windowOrigin) (hwindow : windowOrigin ≠ "") :
    readHostedLinkConfig replaced urlOrigin query origin referrer inIframe =
      { linkToken := some token
        serverUrl := dropSlash origin
        parentOrigin := windowOrigin
        inIframe } := by
  unfold readHostedLinkConfig
  rw [hread]
  dsimp only
  rw [htoken, hserver, horigin, textOr_none, textOr_some hwindow]

/-- The page of a frame reads its token and the origin of the window around it, whatever the
theme. -/
theorem readHostedLinkConfig_iframeUrl {config : Config} (hserver : Plain config.serverUrl)
    {windowOrigin : String} (hwindow : windowOrigin ≠ "") :
    readHostedLinkConfig replaced urlOrigin (search (iframeUrl config windowOrigin)) origin referrer
        inIframe =
      { linkToken := some config.token
        serverUrl := dropSlash origin
        parentOrigin := windowOrigin
        inIframe } := by
  have hbase : '?' ∉ (dropSlash config.serverUrl).toList ++ "/link".toList ∧
      '#' ∉ (dropSlash config.serverUrl).toList ++ "/link".toList :=
    plain_link (fun hmem => hserver.1 (mem_dropSlash hmem)) fun hmem => hserver.2 (mem_dropSlash hmem)
  exact readHostedLinkConfig_eq
    (readQuery_search componentChar_faithful (List.cons_ne_nil _ _) hbase
      (toList_iframeUrl config windowOrigin))
    rfl (lookup_themeParams (by decide) _) rfl hwindow

/-- So does the page of a web view, if it was given an origin. -/
theorem readHostedLinkConfig_webView {config : WebViewConfig} (hserver : Plain config.serverUrl)
    (hwindow : config.origin ≠ "") :
    readHostedLinkConfig replaced urlOrigin (search (buildPlaidifyHostedLinkUrl config)) origin
        referrer inIframe =
      { linkToken := some config.token
        serverUrl := dropSlash origin
        parentOrigin := config.origin
        inIframe } := by
  have hmem : ∀ c ∈ config.serverUrl.toList.rdropWhile (· = '/'), c ∈ config.serverUrl.toList := by
    intro c hc
    rw [List.rdropWhile, List.mem_reverse] at hc
    exact List.mem_reverse.mp ((List.dropWhile_sublist _).mem hc)
  have hbase : '?' ∉ config.serverUrl.toList.rdropWhile (· = '/') ++ "/link".toList ∧
      '#' ∉ config.serverUrl.toList.rdropWhile (· = '/') ++ "/link".toList :=
    plain_link (fun h => hserver.1 (hmem _ h)) fun h => hserver.2 (hmem _ h)
  have horigin : present [("origin", config.origin)] = [("origin", config.origin)] := by
    simp [present, hwindow]
  have hurl : (buildPlaidifyHostedLinkUrl config).toList =
      (config.serverUrl.toList.rdropWhile (· = '/') ++ "/link".toList) ++
        '?' :: writeQuery formChar
          (("token", config.token) :: ("origin", config.origin) :: themeParams config.theme) := by
    rw [buildPlaidifyHostedLinkUrl, horigin]
    simp
  exact readHostedLinkConfig_eq
    (readQuery_search formChar_faithful (List.cons_ne_nil _ _) hbase hurl)
    rfl (lookup_themeParams (by decide) _) rfl hwindow

/-! ## Events of the page -/

theorem lookup_foldl_dictInsert {name : String} {payload : Dict}
    (hname : name ∉ payload.map Prod.fst) (d : Dict) :
    (payload.foldl Json.dictInsert d).lookup name = d.lookup name := by
  induction payload generalizing d with
  | nil => rfl
  | cons m payload ih =>
    rw [List.map_cons, List.mem_cons, not_or] at hname
    rw [List.foldl_cons, ih hname.2, Json.lookup_dictInsert_of_ne hname.1]

/-- A target that was read from the query of the frame is the origin of one window. -/
theorem postMessage_eq {pageOrigin windowOrigin other : String} {message : Dict}
    (hurl : urlOrigin windowOrigin = some windowOrigin)
    (hnone : ∀ text ∈ ["", "*", "/"], urlOrigin text = none) :
    postMessage urlOrigin pageOrigin other windowOrigin message =
      if other = windowOrigin then some { data := .obj message, origin := pageOrigin }
      else none := by
  have hstar : windowOrigin ≠ "*" := by
    rintro rfl
    rw [hnone "*" (by decide)] at hurl
    cases hurl
  have hslash : windowOrigin ≠ "/" := by
    rintro rfl
    rw [hnone "/" (by decide)] at hurl
    cases hurl
  have hother : (windowOrigin = "*" ∨ (windowOrigin = "/" ∧ pageOrigin = other) ∨
      urlOrigin windowOrigin = some other) ↔ other = windowOrigin := by
    rw [hurl]
    simp [hstar, hslash, eq_comm]
  unfold postMessage
  simp only [hother]

/-- The widget listens while its frame is shown, if it was not destroyed. -/
def Hears (s : State) : Prop :=
  s.iframe ≠ none → s.destroyed = false → s.listening = true

theorem run_hears {s : State} {cause : Cause} {tasks : List Task} (h : Hears s) :
    Hears (run cause tasks s) := by
  induction tasks generalizing s with
  | nil => exact h
  | cons task rest ih =>
    cases task with
    | call callback => exact h
    | close =>
      rw [run]
      split
      · -- the frame is taken away before `CLOSE` is announced
        intro hshown
        exact absurd rfl hshown
      · exact ih h
    | closeLater => exact ih (s := { s with closeTimers := s.closeTimers + 1 }) h
    | markDestroyed =>
      refine ih ?_
      intro _ hdestroyed
      cases hdestroyed

theorem openWidget_hears {s : State} (h : Hears s) : Hears (openWidget s) := by
  unfold openWidget
  split
  · exact h
  · split
    · exact h
    · split
      · exact h
      · exact fun _ _ => rfl

theorem step_hears {serverOrigin : String} {s t : State} {l : Label} (h : Hears s)
    (hstep : step serverOrigin s l = some t) : Hears t := by
  cases l with
  | bodyParsed | script =>
    obtain rfl := Option.some.inj hstep
    exact h
  | call method =>
    obtain ⟨-, rfl⟩ := step_call hstep
    cases method with
    | openWidget => exact openWidget_hears h
    | close | destroy => exact run_hears h
  | returns =>
    obtain ⟨stack, -, rfl⟩ | ⟨k, stack, -, rfl⟩ := step_returns hstep
    · exact h
    · have hpopped : Hears { s with stack := stack } := h
      exact run_hears hpopped
  | throws =>
    obtain ⟨stack, -, rfl⟩ | ⟨k, stack, -, rfl⟩ := step_throws hstep
    · exact h
    · exact h
  | message event =>
    obtain rfl := Option.some.inj hstep
    have hnoted : Hears { s with events := s.events ++ [(event, s.listening)] } := h
    unfold receive
    dsimp only
    split
    · exact run_hears hnoted
    · exact hnoted
  | click overlay =>
    obtain ⟨-, rfl⟩ := step_click hstep
    exact run_hears h
  | closeTimer =>
    obtain ⟨-, rfl⟩ := step_closeTimer hstep
    have hfired : Hears { s with closeTimers := s.closeTimers - 1 } := h
    exact run_hears hfired
  | removeOverlay overlay =>
    obtain ⟨-, rfl⟩ := step_removeOverlay hstep
    exact h

/-- The widget accepts what its own page posts, and calls `onEvent` at once. -/
theorem receive_bridgeMessage {serverOrigin event : String} {payload : Dict} {s : State}
    (hlistens : s.listening = true) (hsource : "source" ∉ payload.map Prod.fst)
    (hevent : "event" ∉ payload.map Prod.fst) :
    (receive serverOrigin s
        { data := .obj (bridgeMessage event payload), origin := serverOrigin }).history =
      s.history ++ [.called (.message s.events.length)
        (.onEvent (.str event) (.obj (bridgeMessage event payload)))] := by
  have hsourceMember : member (.obj (bridgeMessage event payload)) "source" =
      .str "plaidify-link" := by
    rw [member, bridgeMessage, lookup_foldl_dictInsert hsource]
    rfl
  have heventMember : member (.obj (bridgeMessage event payload)) "event" = .str event := by
    rw [member, bridgeMessage, lookup_foldl_dictInsert hevent]
    rfl
  have haccepts : accepts serverOrigin
      { data := .obj (bridgeMessage event payload), origin := serverOrigin } = true := by
    simp [accepts, hsourceMember]
  have htasks : ∃ rest, messageTasks (.obj (bridgeMessage event payload)) =
      .call (.onEvent (.str event) (.obj (bridgeMessage event payload))) :: rest := by
    rw [messageTasks, heventMember]
    exact ⟨_, rfl⟩
  obtain ⟨rest, hrest⟩ := htasks
  rw [receive, haccepts, hlistens, hrest]
  rfl

/-- While its frame is shown and nobody destroyed it, the host of a widget is told of every
event that its page posts, in the step in which the message comes. The page has the token of
the widget, and no window of another origin gets the event. -/
theorem frame_told {serverOrigin windowOrigin event : String} {config : Config} {payload : Dict}
    (hserver : Plain config.serverUrl) (hurl : urlOrigin windowOrigin = some windowOrigin)
    (hnone : ∀ text ∈ ["", "*", "/"], urlOrigin text = none)
    (hsource : "source" ∉ payload.map Prod.fst) (hevent : "event" ∉ payload.map Prod.fst) :
    let page := readHostedLinkConfig replaced urlOrigin (search (iframeUrl config windowOrigin))
      serverOrigin referrer true
    let message : MessageEvent :=
      { data := .obj (bridgeMessage event payload), origin := serverOrigin }
    page.linkToken = some config.token ∧
    (∀ other, postBridgeEvent urlOrigin page serverOrigin other event payload =
      if other = windowOrigin then some message else none) ∧
    ∀ labels s, Runs.exec (step serverOrigin) State.initial labels = some s →
      s.iframe ≠ none → s.destroyed = false →
      ∃ t, step serverOrigin s (.message message) = some t ∧
        t.history = s.history ++ [.called (.message s.events.length)
          (.onEvent (.str event) message.data)] := by
  have hwindow : windowOrigin ≠ "" := by
    rintro rfl
    rw [hnone "" (by decide)] at hurl
    cases hurl
  dsimp only
  rw [readHostedLinkConfig_iframeUrl hserver hwindow]
  refine ⟨rfl, ?_, ?_⟩
  · intro other
    exact postMessage_eq hurl hnone
  · intro labels s hrun hshown hkept
    have hhears : Hears s :=
      Runs.invariant (I := Hears) (fun _ _ _ hs hstep => step_hears hs hstep)
        (fun hinitial => absurd rfl hinitial) hrun
    exact ⟨_, rfl, receive_bridgeMessage (hhears hshown hkept) hsource hevent⟩

/-- The URL parser, on the origins of a shop and of its server. -/
def shopUrlOrigin (text : String) : Option String :=
  if text = "https://shop.test" ∨ text = "https://api.test" then some text else none

/-- The widget of the shop is opened. -/
def shopOpened : List Label :=
  [.bodyParsed, .script, .call .openWidget, .returns, .returns]

/-- The page of its frame has the token, and connects. -/
theorem shop_told : ∃ s t,
    (readHostedLinkConfig (fun _ => "") shopUrlOrigin
      (search (iframeUrl { serverUrl := "https://api.test/", token := "a&b c" }
        "https://shop.test")) "https://api.test" "" true).linkToken = some "a&b c" ∧
    Runs.exec (step "https://api.test") State.initial shopOpened = some s ∧
    step "https://api.test" s (.message
      { data := .obj (bridgeMessage "CONNECTED" [("public_token", .str "p")])
        origin := "https://api.test" }) = some t ∧
    t.history = s.history ++ [.called (.message s.events.length) (.onEvent (.str "CONNECTED")
      (.obj (bridgeMessage "CONNECTED" [("public_token", .str "p")])))] := by
  obtain ⟨htoken, -, htold⟩ := @frame_told (fun _ => "") shopUrlOrigin "" "https://api.test"
    "https://shop.test" "CONNECTED" { serverUrl := "https://api.test/", token := "a&b c" }
    [("public_token", .str "p")] (by decide) (by decide) (by decide) (by decide) (by decide)
  have hview : (Runs.exec (step "https://api.test") State.initial shopOpened).map
      (fun s => (s.iframe, s.destroyed)) = some (some 0, false) := by
    decide +kernel
  obtain ⟨s, hs, hview⟩ := Option.map_eq_some_iff.mp hview
  obtain ⟨hiframe, hdestroyed⟩ := Prod.mk.inj hview
  have hshown : s.iframe ≠ none := by
    rw [hiframe]
    exact Option.some_ne_none 0
  obtain ⟨t, ht, hhistory⟩ := htold _ s hs hshown hdestroyed
  exact ⟨s, t, htoken, hs, ht, hhistory⟩

end

end Plaidify.HostedLink.Widget
