import Mathlib.Algebra.BigOperators.Group.List.Basic
import Mathlib.Algebra.GroupWithZero.Nat
import Mathlib.Data.Set.List
import Plaidify.Lib.Csp
import Plaidify.Lib.Origins
import Plaidify.Lib.Table
import Plaidify.Lib.Text
import Plaidify.Principals.Auth

/-!
# The origins of a hosted link

The way of an allow-list: the validators of `HostedLinkBootstrapRequest`
(`src/src/models.py`), the claims of the launch token (`src/src/auth_utils.py`),
`exchange_link_bootstrap` with the session it creates
(`src/src/routers/link_sessions.py`), and the `frame-ancestors` directive of
`security_headers_middleware` (`src/src/app.py`).

The validators let every text through that `urlparse` takes for a scheme with a
netloc. Browsers compare origins in the form in which they serialise them, and
the header has a grammar of its own: `sameMeaning_iff` says for which lists all
of them agree.
-/

namespace Plaidify.HostedLink.AllowedOrigins

open Origins
open Principals (HttpError)

/-! ## `urlparse` -/

structure ParseResult where
  scheme : List Char
  netloc : List Char
  path : List Char
  params : List Char
  query : List Char
  fragment : List Char
deriving Repr, DecidableEq

def schemeChar (c : Char) : Bool :=
  c.isAlphanum || c == '+' || c == '-' || c == '.'

/-- The scheme, where there is one, and the rest of the text. -/
def splitScheme (url : List Char) : List Char × List Char :=
  let before := url.takeWhile (· ≠ ':')
  match before, url.drop before.length with
  | c :: _, _ :: rest =>
      if c.isAlpha && before.all schemeChar then (before.map Char.toLower, rest) else ([], url)
  | _, _ => ([], url)

/-- `_splitnetloc`, behind two slashes. -/
def splitNetloc : List Char → List Char × List Char
  | '/' :: '/' :: rest =>
      let inside := fun c => decide (c ≠ '/' ∧ c ≠ '?' ∧ c ≠ '#')
      (rest.takeWhile inside, rest.dropWhile inside)
  | url => ([], url)

/-- `url.split(c, 1)`. -/
def splitOnce (c : Char) (url : List Char) : List Char × List Char :=
  (url.takeWhile (· ≠ c), (url.dropWhile (· ≠ c)).drop 1)

/-- `_splitparams`: the semicolon counts behind the last slash only. -/
def splitParams (url : List Char) : List Char × List Char :=
  let before := url.rdropWhile (· ≠ '/')
  let (last, params) := splitOnce ';' (url.drop before.length)
  (before ++ last, params)

/-- `urlparse`; `none` for a `ValueError`, which the checks on the netloc raise
(brackets, and characters that NFKC takes for delimiters). -/
def urlparse (refused : List Char → Bool) (text : List Char) : Option ParseResult :=
  let url := (text.dropWhile fun c => c.toNat ≤ 0x20).filter fun c =>
    c ≠ '\t' ∧ c ≠ '\n' ∧ c ≠ '\r'
  let (scheme, url) := splitScheme url
  let (netloc, url) := splitNetloc url
  if refused netloc then none
  else
    let (url, fragment) := splitOnce '#' url
    let (url, query) := splitOnce '?' url
    -- every scheme that is accepted below has parameters
    let (path, params) := splitParams url
    some { scheme, netloc, path, params, query, fragment }

/-! ## The request body -/

section

variable (refused : List Char → Bool)

/-- `_normalize_allowed_origin_value`; `none` for a `ValueError`. -/
def normalizeAllowedOriginValue : Option String → Option (Option String)
  | none => some none
  | some value =>
      let normalized := Text.rstrip '/' (Text.strip value)
      if normalized = "" then some none
      else
        match urlparse refused normalized.toList with
        | none => none
        | some parsed =>
            if (parsed.scheme ≠ "http".toList ∧ parsed.scheme ≠ "https".toList) ∨
                parsed.netloc = [] ∨
                (parsed.path ≠ [] ∧ parsed.path ≠ ['/']) ∨
                parsed.params ≠ [] ∨
                parsed.query ≠ [] ∨
                parsed.fragment ≠ [] ∨
                '@' ∈ parsed.netloc then
              none
            else some (some (String.ofList (parsed.scheme ++ "://".toList ++ parsed.netloc)))

/-- The fields of `HostedLinkBootstrapRequest` that list origins. -/
structure HostedLinkBootstrapRequest where
  allowedOrigin : Option String := none
  allowedOrigins : Option (List String) := none
deriving Repr, DecidableEq

/-- `if entry and entry not in seen`. -/
def addNew (seen : List String) : Option String → List String
  | none => seen
  | some entry => if entry = "" ∨ entry ∈ seen then seen else seen ++ [entry]

/-- `normalize_allowed_origins`. -/
def normalizeAllowedOrigins : Option (List String) → Option (Option (List String))
  | none => some none
  | some value => do
      let entries ← value.mapM fun item => normalizeAllowedOriginValue refused (some item)
      let normalized := entries.foldl addNew []
      return if normalized = [] then none else some normalized

/-- The bounds of the fields are checked before their validators run. -/
def HostedLinkBootstrapRequest.validate (body : HostedLinkBootstrapRequest) :
    Option HostedLinkBootstrapRequest := do
  if 512 < (body.allowedOrigin.getD "").length then none
  if 20 < (body.allowedOrigins.getD []).length then none
  let allowedOrigin ← normalizeAllowedOriginValue refused body.allowedOrigin
  let allowedOrigins ← normalizeAllowedOrigins refused body.allowedOrigins
  return { allowedOrigin, allowedOrigins }

end

/-! ## The exchange -/

/-- The claims of a launch token that list origins. -/
structure LaunchPayload where
  allowedOrigin : Option String
  allowedOrigins : Option (List String)

/-- `create_link_launch_token`. -/
def createLinkLaunchToken (body : HostedLinkBootstrapRequest) : LaunchPayload where
  allowedOrigin := (body.allowedOrigin.filter (· ≠ "")).map (Text.rstrip '/')
  allowedOrigins := (body.allowedOrigins.filter (· ≠ [])).map (·.map (Text.rstrip '/'))

/-- The headers that an origin is taken from. -/
structure Request where
  origin : Option String
  referer : Option String

/-- `_extract_request_origin`. -/
def extractRequestOrigin (refused : List Char → Bool) (request : Request) : Option String :=
  match request.origin.filter (· ≠ "") with
  | some origin => some (Text.rstrip '/' origin)
  | none => do
      let referer ← request.referer.filter (· ≠ "")
      let parsed ← urlparse refused referer.toList
      if parsed.scheme = [] ∨ parsed.netloc = [] then none
      else some (String.ofList (parsed.scheme ++ "://".toList ++ parsed.netloc))

/-- `_normalize_origin`. -/
def normalizeOrigin (origin : Option String) : Option String :=
  (origin.map fun origin => Text.rstrip '/' (Text.strip origin)).filter (· ≠ "")

/-- The fields of a link session that list origins. -/
structure Session where
  allowedOrigin : Option String
  allowedOrigins : List String

/-- `_create_ephemeral_link_session`. -/
def createEphemeralLinkSession (payload : LaunchPayload) : Session :=
  let normalizedPrimary := normalizeOrigin payload.allowedOrigin
  { allowedOrigin := normalizedPrimary
    allowedOrigins :=
      (normalizedPrimary ::
        (payload.allowedOrigins.getD []).map fun entry => normalizeOrigin (some entry)).foldl
          addNew [] }

/-- `allowed_set`. -/
def LaunchPayload.allowedSet (payload : LaunchPayload) : List String :=
  ((payload.allowedOrigins.getD []).filter (· ≠ "")).map (Text.rstrip '/') ++
    ((payload.allowedOrigin.filter (· ≠ "")).map (Text.rstrip '/')).toList

/-- `exchange_link_bootstrap`, with a token whose signature, time and type are
right. -/
def exchangeLinkBootstrap (refused : List Char → Bool) (payload : LaunchPayload)
    (request : Request) (unused : Bool) : Except HttpError Session :=
  let requestOrigin := (extractRequestOrigin refused request).map (Text.rstrip '/')
  if payload.allowedSet ≠ [] ∧ ¬∃ origin ∈ payload.allowedSet, requestOrigin = some origin then
    .error ⟨403, "This origin is not allowed to redeem the hosted-link bootstrap token."⟩
  -- `consume_link_launch_bootstrap`
  else if unused = false then
    .error ⟨410, "Link bootstrap token has expired or has already been used."⟩
  else .ok (createEphemeralLinkSession payload)

/-! ## The header -/

/-- The origins of `security_headers_middleware`. -/
def frameOrigins (session : Session) : List String :=
  ((session.allowedOrigins.map some ++ [session.allowedOrigin]).map
    fun candidate => candidate.map (Text.rstrip '/')).foldl addNew []

/-- `" ".join(["'self'", *origins])`. -/
def frameAncestors (session : Session) : List Char :=
  "'self'".toList ++ (frameOrigins session).flatMap fun origin => ' ' :: origin.toList

/-- What is before the ancestors in the header. -/
def policyStart : String :=
  "default-src 'self'; script-src 'self'; style-src 'self' 'unsafe-inline'; " ++
    "img-src 'self' data:; frame-ancestors "

/-- The value of `Content-Security-Policy` for the hosted page; a character that
Latin-1 does not have raises instead. -/
def contentSecurityPolicy (session : Session) : Option (List Char) :=
  let header := policyStart.toList ++ frameAncestors session
  if header.all (·.toNat < 256) then some header else none

/-! ## The property and the condition -/

def HostedLinkBootstrapRequest.entries (body : HostedLinkBootstrapRequest) : List String :=
  body.allowedOrigin.toList ++ body.allowedOrigins.getD []

/-- How a browser's request tells where it comes from. -/
inductive Sender (b : Browser) where
  | origin (o : Origin b.host) (referer : Option String)
  /-- `Origin: null`, for an opaque origin. -/
  | opaqueOrigin (referer : Option String)
  /-- Without an `Origin` header, the `Referer` has the URL of a page. -/
  | page (o : Origin b.host) (path : List Char)
  /-- Neither of the headers. -/
  | anonymous

def Sender.request {b : Browser} : Sender b → Request
  | .origin o referer => { origin := some (String.ofList o.serialise), referer }
  | .opaqueOrigin referer => { origin := some "null", referer }
  | .page o path =>
      { origin := none, referer := some (String.ofList (o.serialise ++ '/' :: path)) }
  | .anonymous => { origin := none, referer := none }

/-- The origin of the page that sends the request. -/
def Sender.origin? {b : Browser} : Sender b → Option (Origin b.host)
  | .origin o _ | .page o _ => some o
  | .opaqueOrigin _ | .anonymous => none

/-- The set of origins that the body denotes. -/
def Denotes (b : Browser) (body : HostedLinkBootstrapRequest) (o : Origin b.host) : Prop :=
  ∃ entry ∈ body.entries, b.originOf entry.toList = some o

/-- The directives of the header. -/
def directives (sources : List (List Char)) : List Csp.Directive :=
  [⟨"default-src".toList, ["'self'".toList]⟩,
    ⟨"script-src".toList, ["'self'".toList]⟩,
    ⟨"style-src".toList, ["'self'".toList, "'unsafe-inline'".toList]⟩,
    ⟨"img-src".toList, ["'self'".toList, "data:".toList]⟩,
    ⟨"frame-ancestors".toList, "'self'".toList :: sources⟩]

/-- The header is one policy whose ancestors are `'self'` and these origins, with
one source expression each. -/
def Frames (b : Browser) (session : Session) (denoted : Origin b.host → Prop) : Prop :=
  ∃ sources os, (contentSecurityPolicy session).bind Csp.parse = some [directives sources] ∧
    List.Forall₂ Expresses sources os ∧ os.Nodup ∧ ∀ o, o ∈ os ↔ denoted o

/-- The list of origins means the same to the exchange and to the header. -/
structure SameMeaning (b : Browser) (refused : List Char → Bool)
    (body : HostedLinkBootstrapRequest) : Prop where
  redeemed : ∀ sender : Sender b,
    (∃ session, exchangeLinkBootstrap refused (createLinkLaunchToken body) sender.request true =
      .ok session) ↔ ∃ o, sender.origin? = some o ∧ Denotes b body o
  framed : ∀ request unused session,
    exchangeLinkBootstrap refused (createLinkLaunchToken body) request unused = .ok session →
      Frames b session (Denotes b body)

/-- Every entry is listed as browsers serialise an origin, with a host that the
header can name. -/
structure Serialised (b : Browser) (body : HostedLinkBootstrapRequest) : Prop where
  entries : ∀ entry ∈ body.entries, ∃ o, Denotes b body o ∧
    normalizeOrigin (some entry) = some (String.ofList o.serialise) ∧ HostPart o.name
  listed : ∀ o, Denotes b body o → String.ofList o.serialise ∈ body.entries

/-! ## Validated entries -/

/-- What a validated entry looks like. -/
def Shaped (refused : List Char → Bool) (entry : String) : Prop :=
  ∃ scheme : Scheme, ∃ netloc, entry.toList = scheme.text ++ ':' :: '/' :: '/' :: netloc ∧
    netloc ≠ [] ∧ '/' ∉ netloc ∧ refused netloc = false

variable {refused : List Char → Bool}

theorem splitNetloc_slash (url : List Char) : '/' ∉ (splitNetloc url).1 := by
  unfold splitNetloc
  split
  · rename_i rest
    intro hmem
    have hall := List.all_takeWhile (p := fun c => decide (c ≠ '/' ∧ c ≠ '?' ∧ c ≠ '#')) (l := rest)
    have hslash := List.all_eq_true.mp hall '/' hmem
    simp at hslash
  · exact List.not_mem_nil

theorem urlparse_netloc {text : List Char} {parsed : ParseResult}
    (h : urlparse refused text = some parsed) :
    '/' ∉ parsed.netloc ∧ refused parsed.netloc = false := by
  unfold urlparse at h
  dsimp only at h
  split at h
  · cases h
  · rename_i hrefused
    obtain rfl := Option.some.inj h
    exact ⟨splitNetloc_slash _, Bool.eq_false_iff.mpr hrefused⟩

theorem shaped_of_normalize {value : Option String} {entry : String}
    (h : normalizeAllowedOriginValue refused value = some (some entry)) : Shaped refused entry := by
  cases value with
  | none => cases h
  | some value =>
      unfold normalizeAllowedOriginValue at h
      dsimp only at h
      by_cases hempty : Text.rstrip '/' (Text.strip value) = ""
      · rw [if_pos hempty] at h
        cases h
      · rw [if_neg hempty] at h
        cases hparsed : urlparse refused (Text.rstrip '/' (Text.strip value)).toList with
        | none =>
            rw [hparsed] at h
            cases h
        | some parsed =>
            rw [hparsed] at h
            dsimp only at h
            split at h
            · cases h
            · rename_i hchecks
              simp only [not_or, not_and_or, not_not, ne_eq] at hchecks
              obtain rfl := Option.some.inj (Option.some.inj h)
              have hnetloc := urlparse_netloc hparsed
              rcases hchecks with ⟨hscheme | hscheme, hne, -⟩
              · exact ⟨.http, parsed.netloc, by simp [hscheme, Scheme.text], hne, hnetloc⟩
              · exact ⟨.https, parsed.netloc, by simp [hscheme, Scheme.text], hne, hnetloc⟩

theorem mem_addNew {seen : List String} {candidate : Option String} {entry : String} :
    entry ∈ addNew seen candidate ↔ entry ∈ seen ∨ (candidate = some entry ∧ entry ≠ "") := by
  cases candidate with
  | none => simp [addNew]
  | some other =>
      unfold addNew
      dsimp only
      by_cases hskip : other = "" ∨ other ∈ seen
      · rw [if_pos hskip]
        constructor
        · exact Or.inl
        · rintro (h | ⟨heq, hne⟩)
          · exact h
          · obtain rfl := Option.some.inj heq
            exact hskip.resolve_left hne
      · rw [if_neg hskip, List.mem_append, List.mem_singleton]
        rw [not_or] at hskip
        constructor
        · rintro (h | rfl)
          · exact .inl h
          · exact .inr ⟨rfl, hskip.1⟩
        · rintro (h | ⟨heq, -⟩)
          · exact .inl h
          · exact .inr (Option.some.inj heq).symm

/-- Each of the three loops keeps what there is, once. -/
theorem foldl_addNew (candidates : List (Option String)) :
    (candidates.foldl addNew []).Nodup ∧
      ∀ entry, entry ∈ candidates.foldl addNew [] ↔ some entry ∈ candidates ∧ entry ≠ "" := by
  have hgeneral : ∀ seen : List String, seen.Nodup →
      (candidates.foldl addNew seen).Nodup ∧
        ∀ entry, entry ∈ candidates.foldl addNew seen ↔
          entry ∈ seen ∨ (some entry ∈ candidates ∧ entry ≠ "") := by
    induction candidates with
    | nil =>
        intro seen hseen
        exact ⟨hseen, fun entry => by simp⟩
    | cons candidate candidates ih =>
        intro seen hseen
        have hnodup : (addNew seen candidate).Nodup := by
          cases candidate with
          | none => exact hseen
          | some other =>
              unfold addNew
              dsimp only
              split
              · exact hseen
              · rename_i hskip
                rw [not_or] at hskip
                rw [← List.concat_eq_append]
                exact hseen.concat hskip.2
        rcases ih (addNew seen candidate) hnodup with ⟨hrest, hmem⟩
        refine ⟨hrest, fun entry => ?_⟩
        rw [List.foldl_cons, hmem, mem_addNew, List.mem_cons]
        tauto
  rcases hgeneral [] List.nodup_nil with ⟨hnodup, hmem⟩
  exact ⟨hnodup, fun entry => by simp [hmem]⟩

theorem shaped_of_normalizeAllowedOrigins {value : Option (List String)} {entries : List String}
    (h : normalizeAllowedOrigins refused value = some (some entries)) :
    ∀ entry ∈ entries, Shaped refused entry := by
  cases value with
  | none => cases h
  | some value =>
      obtain ⟨candidates, hmap, h⟩ := Option.bind_eq_some_iff.mp h
      have hresult := Option.some.inj h
      split at hresult
      · cases hresult
      · obtain rfl := Option.some.inj hresult
        intro entry hentry
        have hcandidate := ((foldl_addNew candidates).2 entry).mp hentry
        rcases Table.mem_right_of_forall₂ (Table.forall₂_of_mapM hmap).flip hcandidate.1 with
          ⟨item, -, hitem⟩
        exact shaped_of_normalize hitem

/-- The entries of a body that the validators accept. -/
theorem shaped_of_validate {body validated : HostedLinkBootstrapRequest}
    (h : body.validate refused = some validated) : ∀ entry ∈ validated.entries, Shaped refused entry := by
  unfold HostedLinkBootstrapRequest.validate at h
  simp only [Option.bind_eq_bind, Option.pure_def, Option.bind_none] at h
  split at h
  · cases h
  · split at h
    · cases h
    · obtain ⟨allowedOrigin, horigin, h⟩ := Option.bind_eq_some_iff.mp h
      obtain ⟨allowedOrigins, horigins, h⟩ := Option.bind_eq_some_iff.mp h
      obtain rfl := Option.some.inj h
      intro entry hentry
      rcases List.mem_append.mp hentry with hprimary | hlisted
      · rw [Option.mem_toList] at hprimary
        obtain rfl := hprimary
        exact shaped_of_normalize horigin
      · cases allowedOrigins with
        | none => cases hlisted
        | some entries => exact shaped_of_normalizeAllowedOrigins horigins entry hlisted

theorem Shaped.head {entry : String} (h : Shaped refused entry) : ∃ rest, entry.toList = 'h' :: rest := by
  rcases h with ⟨scheme, netloc, heq, -⟩
  cases scheme with
  | http => exact ⟨_, heq⟩
  | https => exact ⟨_, heq⟩

theorem Shaped.ne_empty {entry : String} (h : Shaped refused entry) : entry ≠ "" := by
  rintro rfl
  rcases h.head with ⟨rest, heq⟩
  cases heq

theorem Shaped.rstrip {entry : String} (h : Shaped refused entry) : Text.rstrip '/' entry = entry := by
  rcases h with ⟨scheme, netloc, heq, hne, hslash, -⟩
  apply String.toList_inj.mp
  rw [Text.toList_rstrip, List.rdropWhile_eq_self_iff]
  intro hnil hlast
  have hmem := List.getLast_mem hne
  have hend : entry.toList.getLast hnil = netloc.getLast hne := by
    have hsplit : entry.toList = (scheme.text ++ [':', '/', '/']) ++ netloc := by simp [heq]
    simp only [hsplit]
    exact List.getLast_append_of_ne_nil _ hne
  rw [hend] at hlast
  rw [beq_iff_eq.mp hlast] at hmem
  exact hslash hmem

/-! ## Normalised entries -/

/-- What `_normalize_origin` leaves is stripped already. -/
theorem normalizeOrigin_eq_some {origin : Option String} {normalized : String}
    (h : normalizeOrigin origin = some normalized) :
    Text.rstrip '/' normalized = normalized ∧ normalized ≠ "" := by
  rcases Option.filter_eq_some_iff.mp h with ⟨hmap, hne⟩
  rcases Option.map_eq_some_iff.mp hmap with ⟨text, -, rfl⟩
  exact ⟨Text.rstrip_rstrip '/' _, by simpa using hne⟩

/-- A prefix of a list that is not empty has its head. -/
theorem head_of_leading {c : Char} {rest before : List Char} (h : before <+: c :: rest)
    (hne : before ≠ []) : ∃ more, before = c :: more := by
  rcases List.exists_cons_of_ne_nil hne with ⟨d, more, rfl⟩
  rcases h with ⟨after, heq⟩
  obtain ⟨rfl, -⟩ := List.cons.inj heq
  exact ⟨more, rfl⟩

theorem rdropWhile_cons {c : Char} {rest : List Char} {p : Char → Bool} (hc : p c = false) :
    ∃ more, (c :: rest).rdropWhile p = c :: more := by
  apply head_of_leading (List.rdropWhile_prefix p (c :: rest))
  intro hnil
  have hall := List.rdropWhile_eq_nil_iff.mp hnil c List.mem_cons_self
  rw [hc] at hall
  cases hall

/-- What an entry is normalised to begins with its `h`. -/
theorem Shaped.normalizeOrigin {entry : String} (h : Shaped refused entry) :
    ∃ normalized, normalizeOrigin (some entry) = some normalized ∧
      ∃ rest, normalized.toList = 'h' :: rest := by
  rcases h.head with ⟨rest, hhead⟩
  have hstrip : (Text.strip entry).toList = entry.toList.rdropWhile Text.isSpace := by
    rw [Text.toList_strip, hhead, List.dropWhile_cons_of_neg (by decide)]
  have hne : ∃ rest, (Text.rstrip '/' (Text.strip entry)).toList = 'h' :: rest := by
    rw [Text.toList_rstrip, hstrip, hhead]
    rcases @rdropWhile_cons 'h' rest Text.isSpace (by decide) with ⟨stripped, hstripped⟩
    rw [hstripped]
    exact rdropWhile_cons (by decide)
  refine ⟨Text.rstrip '/' (Text.strip entry), ?_, hne⟩
  apply Option.filter_eq_some_iff.mpr
  refine ⟨rfl, ?_⟩
  rcases hne with ⟨more, heq⟩
  rw [decide_eq_true_eq]
  intro hempty
  rw [hempty] at heq
  cases heq

/-! ## The exchange and the session -/

section

variable {body : HostedLinkBootstrapRequest} (hshaped : ∀ entry ∈ body.entries, Shaped refused entry)

include hshaped

/-- The token carries the entries as they are. -/
theorem createLinkLaunchToken_eq :
    (createLinkLaunchToken body).allowedOrigin = body.allowedOrigin ∧
      (createLinkLaunchToken body).allowedOrigins.getD [] = body.allowedOrigins.getD [] := by
  constructor
  · cases hprimary : body.allowedOrigin with
    | none => simp [createLinkLaunchToken, hprimary]
    | some entry =>
        have hentry := hshaped entry (List.mem_append_left _ (by simp [hprimary]))
        simp [createLinkLaunchToken, hprimary, hentry.ne_empty, hentry.rstrip]
  · cases hlisted : body.allowedOrigins with
    | none => simp [createLinkLaunchToken, hlisted]
    | some entries =>
        have hsame : entries.map (Text.rstrip '/') = entries := by
          have hmap : entries.map (Text.rstrip '/') = entries.map id := by
            apply List.map_congr_left
            intro entry hentry
            have hmem : entry ∈ body.entries :=
              List.mem_append_right _ (by simpa [hlisted] using hentry)
            exact (hshaped entry hmem).rstrip
          rw [hmap, List.map_id]
        by_cases hempty : entries = []
        · simp [createLinkLaunchToken, hlisted, hempty, Option.filter]
        · simp [createLinkLaunchToken, hlisted, hempty, hsame, Option.filter]

theorem mem_allowedSet (entry : String) :
    entry ∈ (createLinkLaunchToken body).allowedSet ↔ entry ∈ body.entries := by
  rcases createLinkLaunchToken_eq hshaped with ⟨hprimary, hlisted⟩
  have hstripped : ∀ entry ∈ body.entries, entry ≠ "" ∧ Text.rstrip '/' entry = entry :=
    fun entry hentry => ⟨(hshaped entry hentry).ne_empty, (hshaped entry hentry).rstrip⟩
  unfold LaunchPayload.allowedSet
  unfold HostedLinkBootstrapRequest.entries at hstripped ⊢
  rw [hprimary, hlisted]
  simp only [List.mem_append, Option.mem_toList] at hstripped ⊢
  simp only [List.mem_map, List.mem_filter, Option.map_eq_some_iff, Option.filter_eq_some_iff]
  constructor
  · rintro (⟨other, ⟨hmem, -⟩, rfl⟩ | ⟨other, ⟨hmem, -⟩, rfl⟩)
    · rw [(hstripped other (.inr hmem)).2]
      exact .inr hmem
    · rw [(hstripped other (.inl hmem)).2]
      exact .inl hmem
  · rintro (hmem | hmem)
    · have hentry := hstripped entry (.inl hmem)
      exact .inr ⟨entry, ⟨hmem, by simpa using hentry.1⟩, hentry.2⟩
    · have hentry := hstripped entry (.inr hmem)
      exact .inl ⟨entry, ⟨hmem, by simpa using hentry.1⟩, hentry.2⟩

/-- The exchange goes through for an origin that is an entry, to the letter. -/
theorem exchangeLinkBootstrap_ok_iff (hne : body.entries ≠ []) {request : Request} {unused : Bool}
    {session : Session} :
    exchangeLinkBootstrap refused (createLinkLaunchToken body) request unused = .ok session ↔
      (∃ entry ∈ body.entries,
        (extractRequestOrigin refused request).map (Text.rstrip '/') = some entry) ∧
      unused = true ∧ session = createEphemeralLinkSession (createLinkLaunchToken body) := by
  have hset : (createLinkLaunchToken body).allowedSet ≠ [] := by
    rcases List.exists_mem_of_ne_nil _ hne with ⟨entry, hentry⟩
    exact List.ne_nil_of_mem ((mem_allowedSet hshaped entry).mpr hentry)
  have hmatch : (∃ origin ∈ (createLinkLaunchToken body).allowedSet,
      (extractRequestOrigin refused request).map (Text.rstrip '/') = some origin) ↔
        ∃ entry ∈ body.entries,
          (extractRequestOrigin refused request).map (Text.rstrip '/') = some entry := by
    simp only [mem_allowedSet hshaped]
  rw [← hmatch]
  unfold exchangeLinkBootstrap
  dsimp only
  split
  · rename_i hrefused
    constructor
    · intro h
      cases h
    · rintro ⟨hallowed, -, -⟩
      exact absurd hallowed hrefused.2
  · rename_i hallowed
    rw [not_and_not_right] at hallowed
    cases unused with
    | false =>
        constructor
        · intro h
          cases h
        · rintro ⟨-, h, -⟩
          cases h
    | true =>
        constructor
        · intro h
          exact ⟨hallowed hset, rfl, by simpa using h.symm⟩
        · rintro ⟨-, -, rfl⟩
          rfl

end

section

variable {body : HostedLinkBootstrapRequest}

/-- What the entries are normalised to, for the session. -/
def HostedLinkBootstrapRequest.candidates (body : HostedLinkBootstrapRequest) :
    List (Option String) :=
  normalizeOrigin body.allowedOrigin ::
    (body.allowedOrigins.getD []).map fun entry => normalizeOrigin (some entry)

theorem some_mem_candidates (origin : String) :
    some origin ∈ body.candidates ↔
      ∃ entry ∈ body.entries, normalizeOrigin (some entry) = some origin := by
  unfold HostedLinkBootstrapRequest.entries HostedLinkBootstrapRequest.candidates
  simp only [List.mem_cons, List.mem_map, List.mem_append, Option.mem_toList]
  constructor
  · rintro (hprimary | ⟨entry, hentry, heq⟩)
    · cases hbody : body.allowedOrigin with
      | none =>
          rw [hbody] at hprimary
          cases hprimary
      | some entry => exact ⟨entry, .inl rfl, by rw [← hbody, hprimary]⟩
    · exact ⟨entry, .inr hentry, heq⟩
  · rintro ⟨entry, hprimary | hentry, heq⟩
    · exact .inl (by rw [hprimary, heq])
    · exact .inr ⟨entry, hentry, heq⟩

theorem stripped_of_mem_candidates {origin : String} (h : some origin ∈ body.candidates) :
    Text.rstrip '/' origin = origin ∧ origin ≠ "" := by
  rcases (some_mem_candidates origin).mp h with ⟨entry, -, heq⟩
  exact normalizeOrigin_eq_some heq

theorem mem_session_allowedOrigins (origin : String) :
    origin ∈ body.candidates.foldl addNew [] ↔ some origin ∈ body.candidates := by
  rw [(foldl_addNew _).2]
  constructor
  · exact And.left
  · intro hmem
    exact ⟨hmem, (stripped_of_mem_candidates hmem).2⟩

/-- The origins of the header are the normalised entries, once each. -/
theorem frameOrigins_spec (hshaped : ∀ entry ∈ body.entries, Shaped refused entry) :
    (frameOrigins (createEphemeralLinkSession (createLinkLaunchToken body))).Nodup ∧
      ∀ origin, origin ∈ frameOrigins (createEphemeralLinkSession (createLinkLaunchToken body)) ↔
        ∃ entry ∈ body.entries, normalizeOrigin (some entry) = some origin := by
  have hsession : createEphemeralLinkSession (createLinkLaunchToken body) =
      { allowedOrigin := normalizeOrigin body.allowedOrigin
        allowedOrigins := body.candidates.foldl addNew [] } := by
    rcases createLinkLaunchToken_eq hshaped with ⟨hprimary, hlisted⟩
    unfold createEphemeralLinkSession
    rw [hprimary, hlisted]
    rfl
  rw [hsession]
  refine ⟨(foldl_addNew _).1, fun origin => ?_⟩
  unfold frameOrigins
  rw [(foldl_addNew _).2, ← some_mem_candidates, List.map_append, List.mem_append]
  constructor
  · rintro ⟨hlists | happended, -⟩
    · rw [List.map_map, List.mem_map] at hlists
      rcases hlists with ⟨other, hother, heq⟩
      have hmem := (mem_session_allowedOrigins other).mp hother
      obtain rfl := Option.some.inj heq
      rw [(stripped_of_mem_candidates hmem).1]
      exact hmem
    · -- the primary origin, which the list has already
      rw [List.map_singleton, List.mem_singleton] at happended
      rcases Option.map_eq_some_iff.mp happended.symm with ⟨other, hother, rfl⟩
      have hprimary : normalizeOrigin body.allowedOrigin = some other := hother
      have hmem : some other ∈ body.candidates := by
        unfold HostedLinkBootstrapRequest.candidates
        rw [hprimary]
        exact List.mem_cons_self
      rw [(stripped_of_mem_candidates hmem).1]
      exact hmem
  · intro hmem
    refine ⟨.inl ?_, (stripped_of_mem_candidates hmem).2⟩
    rw [List.map_map, List.mem_map]
    exact ⟨origin, (mem_session_allowedOrigins origin).mpr hmem,
      congrArg some (stripped_of_mem_candidates hmem).1⟩

end

/-! ## The words of the header -/

theorem words_policyStart :
    Text.words Csp.delimiter (policyStart.toList ++ "'self'".toList) =
      (directives []).flatMap Csp.Directive.words := by
  decide

/-- The words of the header are its fixed ones and those of the origins. -/
theorem words_header (session : Session) :
    Text.words Csp.delimiter (policyStart.toList ++ frameAncestors session) =
      (directives []).flatMap Csp.Directive.words ++
        (frameOrigins session).flatMap fun origin => Text.words Csp.delimiter origin.toList := by
  unfold frameAncestors
  rw [← List.append_assoc, ← words_policyStart]
  exact Text.words_append_flatMap (by decide) _ _ _

/-- The sources are the words of the origins. -/
theorem sources_eq {session : Session} {sources : List (List Char)}
    (h : (contentSecurityPolicy session).bind Csp.parse = some [directives sources]) :
    sources =
      (frameOrigins session).flatMap fun origin => Text.words Csp.delimiter origin.toList := by
  obtain ⟨header, hheader, hparse⟩ := Option.bind_eq_some_iff.mp h
  unfold contentSecurityPolicy at hheader
  dsimp only at hheader
  split at hheader
  · obtain rfl := Option.some.inj hheader
    have hwords := Csp.words_eq_of_parse hparse
    rw [words_header] at hwords
    have hsources : (directives sources).flatMap Csp.Directive.words =
        (directives []).flatMap Csp.Directive.words ++ sources := by
      simp [directives, Csp.Directive.words]
    rw [List.flatMap_singleton, hsources] at hwords
    exact (List.append_cancel_left hwords).symm
  · cases hheader

/-! ## Counting -/

/-- Where each of one list is at least as large as its partner and all of them
together are no larger, all are as large. -/
theorem forall₂_of_sum_le {α β : Type*} {R : α → β → Prop} {f : α → Nat} {g : β → Nat}
    {l : List α} {l' : List β} (h : List.Forall₂ R l l') (hle : ∀ a b, R a b → g b ≤ f a)
    (hsum : (l.map f).sum ≤ (l'.map g).sum) :
    List.Forall₂ (fun a b => R a b ∧ g b = f a) l l' := by
  induction h with
  | nil => exact .nil
  | cons hab hrest ih =>
      have hbelow : ∀ {l : List α} {l' : List β}, List.Forall₂ R l l' →
          (l'.map g).sum ≤ (l.map f).sum := by
        intro l l' h
        induction h with
        | nil => exact Nat.le_refl 0
        | cons hab _ ih =>
            have hfirst := hle _ _ hab
            simp only [List.map_cons, List.sum_cons]
            omega
      have hfirst := hle _ _ hab
      have hothers := hbelow hrest
      simp only [List.map_cons, List.sum_cons] at hsum
      exact .cons ⟨hab, by omega⟩ (ih (by omega))

/-- One word each, where there are no more words than texts. -/
theorem one_word {texts : List String}
    (hne : ∀ text ∈ texts, Text.words Csp.delimiter text.toList ≠ [])
    (hlength : (texts.flatMap fun text => Text.words Csp.delimiter text.toList).length ≤
      texts.length) :
    ∀ text ∈ texts, (Text.words Csp.delimiter text.toList).length = 1 := by
  have hsame : List.Forall₂
      (fun text text' => text = text' ∧ Text.words Csp.delimiter text.toList ≠ []) texts texts :=
    List.forall₂_same.mpr fun text htext => ⟨rfl, hne text htext⟩
  have hcount := forall₂_of_sum_le (g := fun _ => 1)
    (f := fun text : String => (Text.words Csp.delimiter text.toList).length) hsame
    (fun text _ h => List.length_pos_iff.mpr h.2)
    (by simpa [List.length_flatMap] using hlength)
  intro text htext
  rcases Table.mem_right_of_forall₂ hcount htext with ⟨_, -, -, hone⟩
  exact hone.symm

/-- With one word each, the words correspond to the texts. -/
theorem forall₂_words {host : List Char → Prop} {texts : List String} {os : List (Origin host)}
    (hone : ∀ text ∈ texts, (Text.words Csp.delimiter text.toList).length = 1)
    (h : List.Forall₂ Expresses
      (texts.flatMap fun text => Text.words Csp.delimiter text.toList) os) :
    List.Forall₂ (fun text o => ∃ word,
      Text.words Csp.delimiter text.toList = [word] ∧ Expresses word o) texts os := by
  induction texts generalizing os with
  | nil =>
      cases h
      exact .nil
  | cons text texts ih =>
      rcases List.length_eq_one_iff.mp (hone text List.mem_cons_self) with ⟨word, hword⟩
      rw [List.flatMap_cons, hword, List.singleton_append] at h
      cases h with
      | cons hexpresses hrest =>
          exact .cons ⟨word, hword, hexpresses⟩
            (ih (fun text htext => hone text (List.mem_cons_of_mem _ htext)) hrest)

/-- A text's only word is the text without its delimiters. -/
theorem eq_filter_of_words {text word : List Char} (h : Text.words Csp.delimiter text = [word]) :
    word = text.filter fun c => !Csp.delimiter c := by
  have hflatten := @Text.flatten_words Csp.delimiter text
  rwa [h, List.flatten_singleton] at hflatten

theorem toList_serialise_injective (b : Browser) :
    Function.Injective fun o : Origin b.host => String.ofList o.serialise := by
  intro o o' h
  exact serialise_injective b (String.ofList_injective h)

/-- Where the words of texts that list the serialisations of some origins express
just these, the texts are the serialisations, and their hosts are plain. -/
theorem serialise_of_expresses (b : Browser) {texts : List String} {os : List (Origin b.host)}
    (hhead : ∀ text ∈ texts, ∃ rest, text.toList = 'h' :: rest)
    (hos : os.Nodup) (hlisted : ∀ o ∈ os, String.ofList o.serialise ∈ texts)
    (h : List.Forall₂ Expresses
      (texts.flatMap fun text => Text.words Csp.delimiter text.toList) os) :
    ∀ text ∈ texts, ∃ o ∈ os, text = String.ofList o.serialise ∧ HostPart o.name := by
  -- the serialisations are among the texts
  have hsubperm : (os.map fun o => String.ofList o.serialise).Subperm texts := by
    apply List.subperm_of_subset (hos.map (toList_serialise_injective b))
    intro text htext
    rcases List.mem_map.mp htext with ⟨o, ho, rfl⟩
    exact hlisted o ho
  have hle := hsubperm.length_le
  rw [List.length_map] at hle
  have hwords : ∀ text ∈ texts, Text.words Csp.delimiter text.toList ≠ [] := by
    intro text htext
    rcases hhead text htext with ⟨rest, heq⟩
    rw [heq, Text.words_cons (by decide)]
    exact List.cons_ne_nil _ _
  -- there are as many texts as words, as words as origins, and no more origins than texts
  have hone := one_word hwords (by rw [h.length_eq]; exact hle)
  have hpairs := forall₂_words hone h
  have hperm : (os.map fun o => String.ofList o.serialise).Perm texts :=
    hsubperm.perm_of_length_le (by rw [List.length_map, hpairs.length_eq])
  -- as many texts as origins, and of the same lengths together
  have hsum : (texts.map fun text => text.toList.length).sum =
      (os.map fun o => o.serialise.length).sum := by
    rw [← List.Perm.sum_eq (hperm.map fun text => text.toList.length), List.map_map]
    simp [Function.comp_def]
  -- and no text is shorter than its origin
  have hword : ∀ (text : String) (o : Origin b.host),
      (∃ word, Text.words Csp.delimiter text.toList = [word] ∧ Expresses word o) →
        o.serialise.length ≤ text.toList.length := by
    rintro text o ⟨word, hword, hexpresses⟩
    have hshort := length_le_of_expresses hexpresses
    rw [eq_filter_of_words hword] at hshort
    exact hshort.trans (List.length_filter_le _ _)
  have hexact := forall₂_of_sum_le (f := fun text : String => text.toList.length)
    (g := fun o : Origin b.host => o.serialise.length) hpairs hword hsum.le
  intro text htext
  rcases Table.mem_right_of_forall₂ hexact htext with
    ⟨o, -, ⟨word, hsingle, hexpresses⟩, hlength⟩
  -- a word as long as its text is the text
  have hsame : word = text.toList := by
    have hshort := length_le_of_expresses hexpresses
    rw [hlength] at hshort
    rw [eq_filter_of_words hsingle] at hshort ⊢
    exact List.filter_sublist.eq_of_length_le hshort
  rcases List.mem_map.mp (hperm.mem_iff.mpr htext) with ⟨o', ho', htext'⟩
  refine ⟨o', ho', htext'.symm, ?_⟩
  rw [hsame, ← htext', String.toList_ofList] at hexpresses
  exact (eq_of_expresses_serialise (b.hostText _ o'.isHost) hexpresses).2

/-! ## Serialisations are left alone -/

theorem not_isSpace_of_graphic {c : Char} (h : 0x21 ≤ c.toNat ∧ c.toNat ≤ 0x7e) :
    Text.isSpace c = false := by
  unfold Text.isSpace
  simp
  omega

section

variable {b : Browser} (o : Origin b.host)

theorem serialise_ne_nil : o.serialise ≠ [] := by
  cases hscheme : o.scheme <;> simp [Origin.serialise, hscheme, Scheme.text]

theorem serialise_graphic {c : Char} (h : c ∈ o.serialise) : 0x21 ≤ c.toNat ∧ c.toNat ≤ 0x7e :=
  serialise_chars (b.hostText _ o.isHost) h

theorem rstrip_serialise :
    Text.rstrip '/' (String.ofList o.serialise) = String.ofList o.serialise := by
  apply String.toList_inj.mp
  rw [Text.toList_rstrip, String.toList_ofList, List.rdropWhile_eq_self_iff]
  intro hne hlast
  exact serialise_getLast (b.hostText _ o.isHost) hne (beq_iff_eq.mp hlast)

theorem strip_serialise : Text.strip (String.ofList o.serialise) = String.ofList o.serialise := by
  have hspace : ∀ c ∈ o.serialise, Text.isSpace c = false :=
    fun c hc => not_isSpace_of_graphic (serialise_graphic o hc)
  apply String.toList_inj.mp
  have hfront : o.serialise.dropWhile Text.isSpace = o.serialise := by
    rw [List.dropWhile_eq_self_iff]
    intro hpos
    rw [hspace _ (List.getElem_mem hpos)]
    exact Bool.false_ne_true
  rw [Text.toList_strip, String.toList_ofList, hfront, List.rdropWhile_eq_self_iff]
  intro hne
  rw [hspace _ (List.getLast_mem hne)]
  exact Bool.false_ne_true

theorem ofList_serialise_ne_empty : String.ofList o.serialise ≠ "" := by
  intro h
  have hnil := congrArg String.toList h
  rw [String.toList_ofList] at hnil
  exact serialise_ne_nil o hnil

theorem normalizeOrigin_serialise :
    normalizeOrigin (some (String.ofList o.serialise)) = some (String.ofList o.serialise) := by
  unfold normalizeOrigin
  rw [Option.map_some, strip_serialise, rstrip_serialise, Option.filter_some, if_pos]
  simpa using ofList_serialise_ne_empty o

end

/-! ## The origin of a request -/

/-- The scheme of a URL with one of the two schemes. -/
theorem splitScheme_scheme (scheme : Scheme) (rest : List Char) :
    splitScheme (scheme.text ++ ':' :: rest) = (scheme.text, rest) := by
  cases scheme with
  | http => rfl
  | https => rfl

/-- The netloc ends at the slash of the path. -/
theorem splitNetloc_path {netloc : List Char} (h : ∀ c ∈ netloc, c ∉ ['/', '?', '#'])
    (path : List Char) :
    splitNetloc ('/' :: '/' :: (netloc ++ '/' :: path)) = (netloc, '/' :: path) := by
  have hinside : ∀ c ∈ netloc, decide (c ≠ '/' ∧ c ≠ '?' ∧ c ≠ '#') = true := by
    intro c hc
    simpa [not_or] using h c hc
  simp only [splitNetloc]
  rw [List.takeWhile_append_of_pos hinside, List.dropWhile_append_of_pos hinside]
  simp

/-- `urlparse` finds the origin in the URL of a page. -/
theorem urlparse_page {b : Browser} (o : Origin b.host) (path : List Char) :
    (urlparse refused (o.serialise ++ '/' :: path)).map (fun parsed =>
        (parsed.scheme, parsed.netloc)) =
      if refused (o.name ++ portText o.port) then none
      else some (o.scheme.text, o.name ++ portText o.port) := by
  have hkept : ∀ c ∈ o.serialise, c ≠ '\t' ∧ c ≠ '\n' ∧ c ≠ '\r' := by
    intro c hc
    have hgraphic := serialise_graphic o hc
    refine ⟨?_, ?_, ?_⟩ <;> rintro rfl <;> exact absurd hgraphic.1 (by decide)
  have hfront : (o.serialise ++ '/' :: path).dropWhile (fun c => decide (c.toNat ≤ 0x20)) =
      o.serialise ++ '/' :: path := by
    rcases List.exists_cons_of_ne_nil (serialise_ne_nil o) with ⟨c, more, hcons⟩
    have hgraphic := serialise_graphic o (c := c) (by rw [hcons]; exact List.mem_cons_self)
    rw [hcons, List.cons_append, List.dropWhile_cons_of_neg]
    simp only [decide_eq_true_eq]
    omega
  have htext : ((o.serialise ++ '/' :: path).dropWhile fun c => decide (c.toNat ≤ 0x20)).filter
      (fun c => decide (c ≠ '\t' ∧ c ≠ '\n' ∧ c ≠ '\r')) =
        o.scheme.text ++ ':' :: '/' :: '/' :: ((o.name ++ portText o.port) ++ '/' ::
          path.filter fun c => decide (c ≠ '\t' ∧ c ≠ '\n' ∧ c ≠ '\r')) := by
    rw [hfront, List.filter_append, List.filter_eq_self.mpr fun c hc => decide_eq_true (hkept c hc),
      List.filter_cons_of_pos (by decide)]
    simp [Origin.serialise]
  unfold urlparse
  dsimp only
  rw [htext, splitScheme_scheme, splitNetloc_path fun c hc =>
    authority_chars (b.hostText _ o.isHost) hc]
  dsimp only
  split <;> rfl

/-- What the exchange compares is the origin that the browser tells, as it
serialises it. -/
theorem requestOrigin_eq {b : Browser} (sender : Sender b) :
    (extractRequestOrigin refused sender.request).map (Text.rstrip '/') =
      match sender with
      | .origin o _ => some (String.ofList o.serialise)
      | .opaqueOrigin _ => some "null"
      | .page o _ =>
          if refused (o.name ++ portText o.port) then none else some (String.ofList o.serialise)
      | .anonymous => none := by
  cases sender with
  | origin o referer =>
      unfold extractRequestOrigin Sender.request
      rw [Option.filter_some, if_pos (by simpa using ofList_serialise_ne_empty o)]
      dsimp only
      rw [Option.map_some, Text.rstrip_rstrip, rstrip_serialise]
  | opaqueOrigin referer =>
      -- an opaque origin is told as a word
      have hnull : Text.rstrip '/' (Text.rstrip '/' "null") = "null" := by decide
      exact congrArg some hnull
  | page o path =>
      -- the `Referer` is there, for an origin is not empty
      have hreferer : (some (String.ofList (o.serialise ++ '/' :: path))).filter
          (fun text => decide (text ≠ "")) = some (String.ofList (o.serialise ++ '/' :: path)) := by
        rw [Option.filter_some, if_pos]
        simp
      -- it is parsed into the scheme and the host of the page
      have hpage : (urlparse refused (o.serialise ++ '/' :: path)).map
          (fun parsed => (parsed.scheme, parsed.netloc)) =
            if refused (o.name ++ portText o.port) then none
            else some (o.scheme.text, o.name ++ portText o.port) := urlparse_page o path
      unfold extractRequestOrigin Sender.request
      simp only [Option.filter_none, hreferer, Option.bind_eq_bind, Option.bind_some,
        String.toList_ofList]
      cases hparsed : urlparse refused (o.serialise ++ '/' :: path) with
      -- the host is refused by the parser
      | none =>
          rw [hparsed] at hpage
          split at hpage
          · rename_i hrefused
            rw [if_pos hrefused]
            rfl
          · cases hpage
      | some parsed =>
          rw [hparsed] at hpage
          split at hpage
          · cases hpage
          · -- the host is kept, with its port
            rename_i hrefused
            rw [if_neg hrefused]
            obtain ⟨hscheme, hnetloc⟩ := Prod.mk.inj (Option.some.inj hpage)
            have hne : ¬(parsed.scheme = [] ∨ parsed.netloc = []) := by
              rw [hscheme, hnetloc, not_or]
              refine ⟨?_, by simp [(b.hostText _ o.isHost).nonempty]⟩
              cases o.scheme <;> decide
            have horigin : parsed.scheme ++ "://".toList ++ parsed.netloc = o.serialise := by
              rw [hscheme, hnetloc]
              simp [Origin.serialise]
            rw [Option.bind_some, if_neg hne, horigin, Option.map_some, rstrip_serialise]
  | anonymous => rfl

/-! ## The header of serialised entries -/

theorem legal_of_graphic {c : Char} (h : 0x21 ≤ c.toNat ∧ c.toNat ≤ 0x7e) :
    Csp.legal c = true := by
  unfold Csp.legal
  simp [h.1, h.2]

/-- A serialisation with a plain host ends neither a directive nor a policy. -/
theorem char_of_hostPart {b : Browser} {o : Origin b.host} (h : HostPart o.name) {c : Char}
    (hc : c ∈ o.serialise) : c ≠ ',' ∧ c ≠ ';' := by
  have hname : ∀ c ∈ o.name, c ≠ ',' ∧ c ≠ ';' := by
    intro c hc
    have hchar := h.chars c hc
    constructor
    · rintro rfl
      revert hchar
      decide
    · rintro rfl
      revert hchar
      decide
  have hother : (0x2f ≤ c.toNat ∧ c.toNat ≤ 0x3a) ∨ 0x61 ≤ c.toNat → c ≠ ',' ∧ c ≠ ';' := by
    intro hrange
    constructor
    · rintro rfl
      revert hrange
      decide
    · rintro rfl
      revert hrange
      decide
  rcases List.mem_append.mp hc with hscheme | hrest
  · exact hother (.inr (scheme_chars o.scheme c hscheme).1)
  · simp only [List.mem_cons, List.mem_append] at hrest
    rcases hrest with rfl | rfl | rfl | hhost | hport
    · decide
    · decide
    · decide
    · exact hname c hhost
    · have hrange := portText_chars hport
      exact hother (.inl ⟨by omega, hrange.2⟩)

theorem whiteSpace_of_graphic {c : Char} (h : 0x21 ≤ c.toNat ∧ c.toNat ≤ 0x7e) :
    Csp.whiteSpace c = false := by
  have hne : ∀ d : Char, d.toNat ≤ 0x20 → c ≠ d := by
    rintro d hd rfl
    omega
  unfold Csp.whiteSpace
  simp only [Bool.or_eq_false_iff, beq_eq_false_iff_ne]
  refine ⟨⟨⟨⟨?_, ?_⟩, ?_⟩, ?_⟩, by omega⟩
  · exact hne ' ' (by decide)
  · exact hne '\t' (by decide)
  · exact hne '\n' (by decide)
  · exact hne '\r' (by decide)

/-- The directives before the last. -/
def fixedDirectives : List Char :=
  ("default-src 'self'; script-src 'self'; style-src 'self' 'unsafe-inline'; " ++
    "img-src 'self' data:").toList

/-- The last directive, without origins. -/
def ownAncestors : List Char := " frame-ancestors 'self'".toList

theorem policyStart_eq :
    policyStart.toList ++ "'self'".toList = fixedDirectives ++ ';' :: ownAncestors := by
  decide

theorem policy_fixedDirectives :
    Csp.policy fixedDirectives ++
        [⟨"frame-ancestors".toList, "'self'".toList :: sources⟩] = directives sources := by
  have hfixed : Csp.policy fixedDirectives = (directives []).dropLast := by decide
  rw [hfixed]
  rfl

theorem fixedDirectives_chars :
    ∀ c ∈ fixedDirectives, (Csp.legal c = true ∧ c.toNat < 256) ∧ c ≠ ',' :=
  List.all_iff_forall_prop.mp (by decide)

theorem ownAncestors_chars :
    ∀ c ∈ ownAncestors, (Csp.legal c = true ∧ c.toNat < 256) ∧ c ≠ ',' ∧ c ≠ ';' :=
  List.all_iff_forall_prop.mp (by decide)

section

variable {b : Browser} {os : List (Origin b.host)} (hplain : ∀ o ∈ os, HostPart o.name)

include hplain

theorem ancestors_chars {c : Char}
    (hc : c ∈ ownAncestors ++ os.flatMap fun o => ' ' :: o.serialise) :
    (Csp.legal c = true ∧ c.toNat < 256) ∧ c ≠ ',' ∧ c ≠ ';' := by
  rcases List.mem_append.mp hc with hfixed | horigin
  · exact ownAncestors_chars c hfixed
  · rcases List.mem_flatMap.mp horigin with ⟨o, ho, hmem⟩
    rcases List.mem_cons.mp hmem with rfl | hmem
    · decide
    · have hgraphic := serialise_graphic o hmem
      exact ⟨⟨legal_of_graphic hgraphic, by omega⟩, char_of_hostPart (hplain o ho) hmem⟩

theorem policy_ancestors :
    Csp.policy (ownAncestors ++ os.flatMap fun o => ' ' :: o.serialise) =
      [⟨"frame-ancestors".toList, "'self'".toList :: os.map Origin.serialise⟩] := by
  have hwords : Text.words Csp.whiteSpace (ownAncestors ++ os.flatMap fun o => ' ' :: o.serialise) =
      "frame-ancestors".toList :: "'self'".toList :: os.map Origin.serialise := by
    have howns : Text.words Csp.whiteSpace ownAncestors =
        ["frame-ancestors".toList, "'self'".toList] := by decide
    have horigin : ∀ o ∈ os, Text.words Csp.whiteSpace o.serialise = [o.serialise] := by
      intro o _
      apply Text.words_eq_singleton (serialise_ne_nil o)
      intro c hc
      exact whiteSpace_of_graphic (serialise_graphic o hc)
    rw [Text.words_append_flatMap (by decide), howns, List.flatMap_congr horigin,
      ← List.map_eq_flatMap]
    rfl
  rw [Csp.policy_eq_singleton fun c hc => (ancestors_chars hplain hc).2.2, Csp.directive?, hwords]
  rfl

/-- The header of origins with plain hosts parses to its own directives. -/
theorem parse_contentSecurityPolicy {session : Session}
    (horigins : frameOrigins session = os.map fun o => String.ofList o.serialise) :
    (contentSecurityPolicy session).bind Csp.parse =
      some [directives (os.map Origin.serialise)] := by
  have hheader : policyStart.toList ++ frameAncestors session =
      fixedDirectives ++ ';' :: (ownAncestors ++ os.flatMap fun o => ' ' :: o.serialise) := by
    unfold frameAncestors
    rw [horigins, List.flatMap_map, ← List.append_assoc, policyStart_eq, List.append_assoc]
    simp only [String.toList_ofList, List.cons_append]
  have hchars : ∀ c ∈ policyStart.toList ++ frameAncestors session,
      (Csp.legal c = true ∧ c.toNat < 256) ∧ c ≠ ',' := by
    intro c hc
    rw [hheader] at hc
    rcases List.mem_append.mp hc with hfixed | hrest
    · exact fixedDirectives_chars c hfixed
    · rcases List.mem_cons.mp hrest with rfl | hrest
      · decide
      · have hancestors := ancestors_chars hplain hrest
        exact ⟨hancestors.1, hancestors.2.1⟩
  have hpolicy : Csp.policy (policyStart.toList ++ frameAncestors session) =
      directives (os.map Origin.serialise) := by
    rw [hheader, Csp.policy_append_cons, policy_ancestors hplain, policy_fixedDirectives]
  unfold contentSecurityPolicy
  dsimp only
  rw [if_pos (List.all_eq_true.mpr fun c hc => decide_eq_true (hchars c hc).1.2), Option.bind_some,
    Csp.parse_eq_singleton (fun c hc => (hchars c hc).1.1) (fun c hc => (hchars c hc).2), hpolicy]
  rw [hpolicy]
  exact List.cons_ne_nil _ _

end

/-! ## When the list means one thing -/

section

variable {b : Browser} {body : HostedLinkBootstrapRequest}
  (hshaped : ∀ entry ∈ body.entries, Shaped refused entry) (hne : body.entries ≠ [])

include hshaped hne

omit hne in
/-- `null` is no entry. -/
theorem null_not_mem_entries : "null" ∉ body.entries := by
  intro hentry
  rcases (hshaped _ hentry).head with ⟨rest, heq⟩
  have hhead : "null".toList.head? = some 'h' := by rw [heq, List.head?_cons]
  exact absurd hhead (by decide)

omit hne in
/-- The netloc of an entry that serialises an origin has passed the validator. -/
theorem not_refused_of_mem {o : Origin b.host} (h : String.ofList o.serialise ∈ body.entries) :
    refused (o.name ++ portText o.port) = false := by
  rcases hshaped _ h with ⟨scheme, netloc, heq, -, -, hrefused⟩
  rw [String.toList_ofList] at heq
  have hcolon : ∀ scheme : Scheme, ':' ∉ scheme.text :=
    fun scheme => colon_not_mem_scheme (scheme_map_toLower scheme)
  have hrest := (Separated.append_cons_inj (hcolon o.scheme) (hcolon scheme) heq).2
  have hnetloc : o.name ++ portText o.port = netloc :=
    (List.cons.inj (List.cons.inj hrest).2).2
  rw [hnetloc]
  exact hrefused

/-- A redemption is allowed exactly where the serialised origin of the sender is
an entry. -/
theorem redeemed_iff (sender : Sender b) :
    (∃ session, exchangeLinkBootstrap refused (createLinkLaunchToken body) sender.request true =
      .ok session) ↔
        ∃ o, sender.origin? = some o ∧ String.ofList o.serialise ∈ body.entries := by
  simp only [exchangeLinkBootstrap_ok_iff hshaped hne, requestOrigin_eq]
  cases sender with
  | origin o referer => simp [Sender.origin?]
  | opaqueOrigin referer => simp [Sender.origin?, null_not_mem_entries hshaped]
  | page o path =>
      simp only [Sender.origin?, Option.some.injEq, exists_eq_left', true_and]
      constructor
      · rintro ⟨_, ⟨entry, hentry, heq⟩, -⟩
        split at heq
        · cases heq
        · rw [Option.some.inj heq]
          exact hentry
      · intro hentry
        have hrefused := not_refused_of_mem hshaped hentry
        exact ⟨_, ⟨_, hentry, by rw [hrefused, if_neg Bool.false_ne_true]⟩, rfl⟩
  | anonymous => simp [Sender.origin?]

theorem serialised_of_sameMeaning (h : SameMeaning b refused body) : Serialised b body := by
  have hlisted : ∀ o, Denotes b body o → String.ofList o.serialise ∈ body.entries := by
    intro o ho
    have hredeemed := (h.redeemed (.origin o none)).mpr ⟨o, rfl, ho⟩
    rcases (redeemed_iff hshaped hne (.origin o none)).mp hredeemed with ⟨o', heq, hmem⟩
    obtain rfl := Option.some.inj heq
    exact hmem
  refine ⟨?_, hlisted⟩
  rcases frameOrigins_spec hshaped with ⟨-, hframe⟩
  -- a session comes of a request with an entry in its header
  rcases List.exists_mem_of_ne_nil _ hne with ⟨first, hfirst⟩
  have hrequest : (extractRequestOrigin refused { origin := some first, referer := none }).map
      (Text.rstrip '/') = some first := by
    have hfirstShaped := hshaped first hfirst
    unfold extractRequestOrigin
    rw [Option.filter_some, if_pos (by simpa using hfirstShaped.ne_empty)]
    dsimp only
    rw [Option.map_some, hfirstShaped.rstrip, hfirstShaped.rstrip]
  have hsession : exchangeLinkBootstrap refused (createLinkLaunchToken body)
      { origin := some first, referer := none } true =
        .ok (createEphemeralLinkSession (createLinkLaunchToken body)) :=
    (exchangeLinkBootstrap_ok_iff hshaped hne).mpr ⟨⟨first, hfirst, hrequest⟩, rfl, rfl⟩
  rcases h.framed _ _ _ hsession with ⟨sources, os, hparse, hexpresses, hnodup, hdenoted⟩
  rw [sources_eq hparse] at hexpresses
  have htexts : ∀ text ∈ frameOrigins (createEphemeralLinkSession (createLinkLaunchToken body)),
      ∃ rest, text.toList = 'h' :: rest := by
    intro text htext
    rcases (hframe text).mp htext with ⟨entry, hentry, hnormalized⟩
    rcases (hshaped entry hentry).normalizeOrigin with ⟨normalized, heq, hhead⟩
    obtain rfl := Option.some.inj (heq.symm.trans hnormalized)
    exact hhead
  have hall := serialise_of_expresses b htexts hnodup
    (fun o ho => (hframe _).mpr ⟨_, hlisted o ((hdenoted o).mp ho), normalizeOrigin_serialise o⟩)
    hexpresses
  intro entry hentry
  rcases (hshaped entry hentry).normalizeOrigin with ⟨normalized, hnormalized, -⟩
  rcases hall normalized ((hframe normalized).mpr ⟨entry, hentry, hnormalized⟩) with
    ⟨o, ho, rfl, hplain⟩
  exact ⟨o, (hdenoted o).mp ho, hnormalized, hplain⟩

theorem sameMeaning_of_serialised (h : Serialised b body) : SameMeaning b refused body where
  redeemed := by
    intro sender
    rw [redeemed_iff hshaped hne]
    constructor
    · -- whoever redeems the token has an origin that the list names
      rintro ⟨o, hsender, hentry⟩
      have hread : b.originOf (String.ofList o.serialise).toList = some o := by
        rw [String.toList_ofList]
        exact b.originOf_serialise o
      exact ⟨o, hsender, _, hentry, hread⟩
    · -- an origin of the list redeems it
      rintro ⟨o, hsender, ho⟩
      exact ⟨o, hsender, h.listed o ho⟩
  framed := by
    intro request unused session hsession
    obtain ⟨-, -, rfl⟩ := (exchangeLinkBootstrap_ok_iff hshaped hne).mp hsession
    rcases frameOrigins_spec hshaped with ⟨hnodup, hframe⟩
    -- every frame origin is the serialisation of a denoted one
    have hserialised : ∀ text ∈ frameOrigins (createEphemeralLinkSession
        (createLinkLaunchToken body)), ∃ o : Origin b.host, Denotes b body o ∧
          String.ofList o.serialise = text ∧ HostPart o.name := by
      intro text htext
      rcases (hframe text).mp htext with ⟨entry, hentry, hnormalized⟩
      rcases h.entries entry hentry with ⟨o, ho, heq, hplain⟩
      exact ⟨o, ho, Option.some.inj (heq.symm.trans hnormalized), hplain⟩
    -- so they are the serialisations of some origins
    have hrange : frameOrigins (createEphemeralLinkSession (createLinkLaunchToken body)) ∈
        Set.range (List.map fun o : Origin b.host => String.ofList o.serialise) := by
      rw [Set.range_list_map]
      intro text htext
      rcases hserialised text htext with ⟨o, -, heq, -⟩
      exact ⟨o, heq⟩
    rcases hrange with ⟨os, hos⟩
    have hmem : ∀ o ∈ os, Denotes b body o ∧ HostPart o.name := by
      intro o ho
      have htext : String.ofList o.serialise ∈
          frameOrigins (createEphemeralLinkSession (createLinkLaunchToken body)) := by
        rw [← hos]
        exact List.mem_map_of_mem ho
      rcases hserialised _ htext with ⟨o', ho', heq, hplain⟩
      obtain rfl := toList_serialise_injective b heq
      exact ⟨ho', hplain⟩
    refine ⟨os.map Origin.serialise, os,
      parse_contentSecurityPolicy (fun o ho => (hmem o ho).2) hos.symm, ?_, ?_, ?_⟩
    · -- the words of the policy express them
      rw [List.forall₂_map_left_iff]
      apply List.forall₂_same.mpr
      intro o ho
      exact expresses_serialise (b.hostText _ o.isHost) (hmem o ho).2
    · -- no two are the same
      rw [← hos] at hnodup
      exact hnodup.of_map
    · -- they are just those of the list
      intro o
      constructor
      · intro ho
        exact (hmem o ho).1
      · intro ho
        have htext := (hframe _).mpr ⟨_, h.listed o ho, normalizeOrigin_serialise o⟩
        rw [← hos, List.mem_map] at htext
        rcases htext with ⟨o', ho', heq⟩
        obtain rfl := toList_serialise_injective b heq
        exact ho'

end

-- a semicolon in an accepted entry begins a directive of its own
example : (contentSecurityPolicy (createEphemeralLinkSession (createLinkLaunchToken
    { allowedOrigins := some ["https://a.example; script-src *"] }))).bind Csp.parse =
      some [directives ["https://a.example".toList] ++ [⟨"script-src".toList, [['*']]⟩]] := by
  decide +kernel

/-- A list of origins means the same to the exchange and to the header exactly where
its entries are listed as browsers serialise them, with hosts that the header can
name. -/
theorem sameMeaning_iff (b : Browser) {body validated : HostedLinkBootstrapRequest}
    (h : body.validate refused = some validated) (hne : validated.entries ≠ []) :
    SameMeaning b refused validated ↔ Serialised b validated :=
  ⟨serialised_of_sameMeaning (shaped_of_validate h) hne,
    sameMeaning_of_serialised (shaped_of_validate h) hne⟩

/-- The origin of an application. -/
def appOrigin : Origin PlainHost where
  scheme := .https
  name := "app.example.com".toList
  port := none
  isPort := by simp
  isHost :=
    { left := ⟨by decide, List.all_iff_forall_prop.mp (by decide), by decide⟩
      right := ⟨by decide, List.all_iff_forall_prop.mp (by decide), by decide, by decide⟩ }
  notDefault := by simp

theorem appOrigin_sameMeaning :
    SameMeaning plainBrowser (fun _ => false)
      { allowedOrigins := some ["https://app.example.com"] } := by
  have hvalid : HostedLinkBootstrapRequest.validate (fun _ => false)
      { allowedOrigins := some [" https://app.example.com/"] } =
        some { allowedOrigins := some ["https://app.example.com"] } := by decide
  refine (sameMeaning_iff plainBrowser hvalid (by decide)).mpr ?_
  have hread : plainBrowser.originOf "https://app.example.com".toList = some appOrigin :=
    plainOrigin_eq (by decide)
  refine ⟨?_, ?_⟩
  · intro entry hentry
    obtain rfl := List.mem_singleton.mp hentry
    exact ⟨appOrigin, ⟨_, List.mem_singleton_self _, hread⟩, by decide, appOrigin.isHost.2⟩
  · rintro o ⟨entry, hentry, ho⟩
    obtain rfl := List.mem_singleton.mp hentry
    obtain rfl := Option.some.inj (hread.symm.trans ho)
    decide

/-- In capitals the entry is accepted, and no browser sends it so. -/
theorem upperCase_not_sameMeaning :
    ∃ body : HostedLinkBootstrapRequest,
      body = { allowedOrigins := some ["https://App.Example.com"] } ∧
      body.validate (fun _ => false) = some body ∧ body.entries ≠ [] ∧
      ¬SameMeaning plainBrowser (fun _ => false) body := by
  have hvalid : HostedLinkBootstrapRequest.validate (fun _ => false)
      { allowedOrigins := some ["https://App.Example.com"] } =
        some { allowedOrigins := some ["https://App.Example.com"] } := by decide
  refine ⟨_, rfl, hvalid, by decide, ?_⟩
  intro h
  have hread : plainBrowser.originOf "https://App.Example.com".toList = some appOrigin :=
    plainOrigin_eq (by decide)
  have hserialised := serialised_of_sameMeaning (shaped_of_validate hvalid) (by decide) h
  have hlisted := hserialised.listed appOrigin ⟨_, List.mem_singleton_self _, hread⟩
  revert hlisted
  decide

end Plaidify.HostedLink.AllowedOrigins
