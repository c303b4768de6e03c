import Plaidify.Blueprints.Loading
import Plaidify.Lib.Runs
import Plaidify.Lib.Table

/-!
# The registry

`registry_publish`, `registry_get` and `registry_delete` of
`src/src/routers/registry.py`. A record stands under the key of its site, and its
publisher owns it. The key is made of the domain that the document names, or of the
name of the blueprint where it names none. Documents of different domains may have
the same key, and then one of them is in the way of the other: `oneDomain_iff`.
-/

namespace Plaidify.Blueprints.Registry

open Engine (MFAConfig FieldDefs)
open Principals (HttpError internalError)

/-! ## Records -/

/-- The parts of a user that the registry reads. -/
structure User where
  id : Int
  username : Option String
  email : Option String

/-- The versions that the registry gives out: `major.minor.patch`. -/
structure Version where
  major : Nat := 1
  minor : Nat := 0
  patch : Nat := 0
deriving DecidableEq

/-- `BlueprintRecord`. Of the columns that hold a JSON text this has the value. -/
structure BlueprintRecord where
  site : String
  name : String
  domain : String
  description : Option String
  author : Option String
  version : Version := {}
  schemaVersion : String
  tags : List String
  hasMfa : Bool
  qualityTier : String := "community"
  blueprintJson : Json
  extractFields : List String
  downloads : Nat := 0
  publishedBy : Int

abbrev Records := Table BlueprintRecord BlueprintRecord.site

/-- A request body. -/
structure Body where
  blueprint : Json := .null
  description : Option String := some ""

/-- `a or b` of texts that may be missing. -/
def orElse (a b : Option String) : Option String :=
  match a with
  | some text => if text = "" then b else some text
  | none => b

/-! ## Site keys -/

section

variable (lower : String → String)

/-- `.replace(".", "_").replace(" ", "_")`. -/
def underscored (s : String) : String :=
  String.ofList (s.toList.map fun c => if c = '.' ∨ c = ' ' then '_' else c)

/-- The key for a domain, or for a name where there is no domain. -/
def siteKey (domain name : String) : String :=
  let site := lower (underscored domain)
  if site = "" then
    String.ofList ((lower name).toList.map fun c => if c = ' ' then '_' else c)
  else site

/-- `blueprint_json.get("domain", "")`, which has to be a text. -/
def namedDomain : Json → Option String
  | .obj document => asText ((document.lookup "domain").getD (.str ""))
  | _ => none

variable (refused : List Char → Bool) (modelValidate : Engine.Dict → Option BlueprintV2)
  (floatRepr : String → String)

/-- What a document is recorded as: its blueprint, and its key. -/
def identify (document : Json) : Option (BlueprintV2 × String) := do
  let bp ← loadBlueprint refused modelValidate document
  let domain ← namedDomain document
  return (bp, siteKey lower domain bp.name)

/-! ## Requests -/

/-- The document of a request, which may come as a text. -/
def document : Json → Option Json
  | .str text => Json.loads floatRepr text
  | json => some json

structure Published where
  updated : Bool
  site : String
  version : Version

def requiredError : HttpError :=
  ⟨422, "'blueprint' field is required (the full blueprint JSON object)."⟩

def jsonError : HttpError := ⟨422, "'blueprint' is not valid JSON."⟩

def ownerError : HttpError :=
  ⟨403, "A blueprint for this site already exists and belongs to another user."⟩

/-- The record of a site, written anew by its owner. -/
def BlueprintRecord.update (existing : BlueprintRecord) (description : Option String)
    (document : Json) (bp : BlueprintV2) : BlueprintRecord :=
  { existing with
    name := bp.name
    domain := bp.domain
    description := orElse description existing.description
    schemaVersion := bp.schemaVersion
    tags := bp.tags
    hasMfa := bp.mfa.isSome
    blueprintJson := document
    extractFields := bp.extract.map Prod.fst
    version := { existing.version with patch := existing.version.patch + 1 } }

def newRecord (user : User) (site : String) (description : Option String) (document : Json)
    (bp : BlueprintV2) : BlueprintRecord where
  name := bp.name
  site := site
  domain := bp.domain
  description := description
  author := orElse user.username user.email
  schemaVersion := bp.schemaVersion
  tags := bp.tags
  hasMfa := bp.mfa.isSome
  blueprintJson := document
  extractFields := bp.extract.map Prod.fst
  publishedBy := user.id

/-- The part of `registry_publish` behind the validation. -/
def record (s : Records) (user : User) (description : Option String) (document : Json)
    (bp : BlueprintV2) (site : String) : Except HttpError Published × Records :=
  match s.get? site with
  | some existing =>
      if existing.publishedBy ≠ user.id then (.error ownerError, s)
      else
        let updated := existing.update description document bp
        (.ok ⟨true, site, updated.version⟩, s.put updated)
  | none =>
      let new := newRecord user site description document bp
      (.ok ⟨false, site, new.version⟩, s.assign new)

/-- `registry_publish`; `explain` is the text of the exception that loading raises. -/
def registryPublish (explain : Json → String) (s : Records) (user : User) (body : Body) :
    Except HttpError Published × Records :=
  if body.blueprint.truthy = false then (.error requiredError, s)
  else
    match document floatRepr body.blueprint with
    | none => (.error jsonError, s)
    | some document =>
        match loadBlueprint refused modelValidate document with
        | none => (.error ⟨422, "Invalid blueprint: " ++ explain document⟩, s)
        | some bp =>
            match namedDomain document with
            | none => (.error internalError, s)
            | some domain =>
                record s user body.description document bp (siteKey lower domain bp.name)

def notFoundError (siteName : String) : HttpError :=
  ⟨404, "Blueprint '" ++ siteName ++ "' not found in registry."⟩

/-- `registry_get`. -/
def registryGet (s : Records) (siteName : String) : Except HttpError BlueprintRecord × Records :=
  match s.get? siteName with
  | none => (.error (notFoundError siteName), s)
  | some existing =>
      let counted := { existing with downloads := existing.downloads + 1 }
      (.ok counted, s.put counted)

/-- `registry_delete`. -/
def registryDelete (s : Records) (user : User) (siteName : String) :
    Except HttpError Unit × Records :=
  match s.get? siteName with
  | none => (.error (notFoundError siteName), s)
  | some existing =>
      if existing.publishedBy ≠ user.id then
        (.error ⟨403, "Only the blueprint owner can delete it."⟩, s)
      else (.ok (), s.delete (·.site == siteName))

/-! ## Histories -/

inductive Call where
  | publish (user : User) (body : Body)
  | get (siteName : String)
  | delete (user : User) (siteName : String)

variable (explain : Json → String)

def step (s : Records) : Call → Option Records
  | .publish user body =>
      some (registryPublish lower refused modelValidate floatRepr explain s user body).2
  | .get siteName => some (registryGet s siteName).2
  | .delete user siteName => some (registryDelete s user siteName).2

/-- A document for a domain is published: no record of another domain is overwritten, and
none is the reason of a refusal. -/
structure OneDomainBy (s : Records) (user : User) (body : Body) : Prop where
  overwritten : ∀ bp site, (document floatRepr body.blueprint).bind
      (identify lower refused modelValidate) = some (bp, site) →
    ∀ r ∈ s.rows,
      r ∉ (registryPublish lower refused modelValidate floatRepr explain s user body).2.rows →
        lower r.domain = lower bp.domain
  refused : ∀ bp site, (document floatRepr body.blueprint).bind
      (identify lower refused modelValidate) = some (bp, site) →
    (registryPublish lower refused modelValidate floatRepr explain s user body).1 =
        .error ownerError →
      ∀ r, s.get? site = some r → lower r.domain = lower bp.domain

def OneDomain (s : Records) : Call → Prop
  | .publish user body => OneDomainBy lower refused modelValidate floatRepr explain s user body
  | _ => True

/-- Two documents of different domains have one key. -/
def Clash (a b : Json) : Prop :=
  ∃ bpA bpB site, identify lower refused modelValidate a = some (bpA, site) ∧
    identify lower refused modelValidate b = some (bpB, site) ∧
      lower bpA.domain ≠ lower bpB.domain

/-- No record holds a document that clashes with the one that is published. -/
def Apart (s : Records) : Call → Prop
  | .publish _ body => ∀ new, body.blueprint.truthy = true →
      document floatRepr body.blueprint = some new →
        ∀ r ∈ s.rows, ¬ Clash lower refused modelValidate r.blueprintJson new
  | _ => True

end

section

variable {lower : String → String} {refused : List Char → Bool}
  {modelValidate : Engine.Dict → Option BlueprintV2} {floatRepr : String → String}
  {explain : Json → String}

/-! ## What publishing does -/

theorem identify_eq_some_iff {document : Json} {bp : BlueprintV2} {site : String} :
    identify lower refused modelValidate document = some (bp, site) ↔
      loadBlueprint refused modelValidate document = some bp ∧
        ∃ domain, namedDomain document = some domain ∧ site = siteKey lower domain bp.name := by
  unfold identify
  cases hload : loadBlueprint refused modelValidate document with
  | none => simp
  | some loaded =>
    cases hdomain : namedDomain document with
    | none => simp
    | some domain =>
      constructor
      · intro h
        obtain ⟨rfl, rfl⟩ := Prod.mk.inj (Option.some.inj h)
        exact ⟨rfl, domain, rfl, rfl⟩
      · rintro ⟨hbp, d, hd, rfl⟩
        obtain rfl := Option.some.inj hbp
        obtain rfl := Option.some.inj hd
        rfl

/-- A document that can be recorded is. -/
theorem registryPublish_of_identify {s : Records} {user : User} {body : Body} {new : Json}
    {bp : BlueprintV2} {site : String} (htruthy : body.blueprint.truthy = true)
    (hdocument : document floatRepr body.blueprint = some new)
    (hidentify : identify lower refused modelValidate new = some (bp, site)) :
    registryPublish lower refused modelValidate floatRepr explain s user body =
      record s user body.description new bp site := by
  obtain ⟨hload, domain, hdomain, rfl⟩ := identify_eq_some_iff.mp hidentify
  unfold registryPublish
  rw [htruthy, if_neg (by decide), hdocument]
  dsimp only
  rw [hload]
  dsimp only
  rw [hdomain]

variable (lower refused modelValidate floatRepr explain) in
/-- Any other request fails without looking at the records. -/
theorem registryPublish_cases (s : Records) (user : User) (body : Body) :
    (∃ new bp site, body.blueprint.truthy = true ∧
        document floatRepr body.blueprint = some new ∧
        identify lower refused modelValidate new = some (bp, site)) ∨
      (registryPublish lower refused modelValidate floatRepr explain s user body).2 = s ∧
        (registryPublish lower refused modelValidate floatRepr explain s user body).1 ≠
          .error ownerError := by
  have hstatus : ∀ {e : HttpError}, e.statusCode ≠ 403 →
      (Except.error e : Except HttpError Published) ≠ .error ownerError := by
    intro e hne heq
    exact hne (congrArg HttpError.statusCode (Except.error.inj heq))
  unfold registryPublish
  cases htruthy : body.blueprint.truthy with
  | false =>
    rw [if_pos rfl]
    exact .inr ⟨rfl, hstatus (by decide)⟩
  | true =>
    rw [if_neg (by decide)]
    cases hdocument : document floatRepr body.blueprint with
    | none => exact .inr ⟨rfl, hstatus (by decide)⟩
    | some new =>
      dsimp only
      cases hload : loadBlueprint refused modelValidate new with
      | none => exact .inr ⟨rfl, hstatus (by simp)⟩
      | some bp =>
        dsimp only
        cases hdomain : namedDomain new with
        | none => exact .inr ⟨rfl, hstatus (by decide)⟩
        | some domain =>
          exact .inl ⟨new, bp, _, rfl, rfl,
            identify_eq_some_iff.mpr ⟨hload, domain, hdomain, rfl⟩⟩

/-- The three ends of `record`: the record of the site is somebody else's, or is written
anew, or is the first. -/
theorem record_cases (s : Records) (user : User) (description : Option String) (new : Json)
    (bp : BlueprintV2) (site : String) :
    (∃ existing, s.get? site = some existing ∧ existing.publishedBy ≠ user.id ∧
        record s user description new bp site = (.error ownerError, s)) ∨
      (∃ existing, s.get? site = some existing ∧ existing.publishedBy = user.id ∧
        record s user description new bp site =
          (.ok ⟨true, site, (existing.update description new bp).version⟩,
            s.put (existing.update description new bp))) ∨
      (s.get? site = none ∧
        record s user description new bp site =
          (.ok ⟨false, site, {}⟩, s.assign (newRecord user site description new bp))) := by
  unfold record
  cases hget : s.get? site with
  | none => exact .inr (.inr ⟨rfl, rfl⟩)
  | some existing =>
    dsimp only
    by_cases howner : existing.publishedBy = user.id
    · rw [if_neg (not_not.mpr howner)]
      exact .inr (.inl ⟨existing, rfl, howner, rfl⟩)
    · rw [if_pos howner]
      exact .inl ⟨existing, rfl, howner, rfl⟩

/-! ## What is on record -/

variable (lower refused modelValidate) in
/-- Every record stands under the key of its document, with the domain of its
blueprint. -/
def Recorded (s : Records) : Prop :=
  ∀ r ∈ s.rows, ∃ bp,
    identify lower refused modelValidate r.blueprintJson = some (bp, r.site) ∧
      r.domain = bp.domain

theorem recorded_put {s : Records} (hs : Recorded lower refused modelValidate s)
    {new : BlueprintRecord} (hnew : ∃ bp,
      identify lower refused modelValidate new.blueprintJson = some (bp, new.site) ∧
        new.domain = bp.domain) :
    Recorded lower refused modelValidate (s.put new) := by
  intro r hr
  rw [Table.put_rows] at hr
  obtain ⟨old, hold, rfl⟩ := List.mem_map.mp hr
  split
  · exact hnew
  · exact hs old hold

theorem assign_rows {s : Records} {new : BlueprintRecord} (h : s.get? new.site = none) :
    (s.assign new).rows = s.rows ++ [new] := by
  unfold Table.assign
  cases hinsert : s.insert? new with
  | none =>
    have hnot : new.site ∉ s.rows.map BlueprintRecord.site := by
      intro hmem
      obtain ⟨r, hr, hsite⟩ := List.mem_map.mp hmem
      have hfound := Table.get?_of_mem hr
      rw [hsite, h] at hfound
      cases hfound
    rw [Table.insert?, dif_neg hnot] at hinsert
    cases hinsert
  | some t => exact (Table.insert?_eq_some hinsert).2

theorem recorded_step {s t : Records} {call : Call}
    (hs : Recorded lower refused modelValidate s)
    (h : step lower refused modelValidate floatRepr explain s call = some t) :
    Recorded lower refused modelValidate t := by
  cases call with
  | publish user body =>
    obtain rfl := Option.some.inj h
    rcases registryPublish_cases lower refused modelValidate floatRepr explain s user body with
      ⟨new, bp, site, htruthy, hdocument, hidentify⟩ | ⟨hsame, -⟩
    · rw [registryPublish_of_identify htruthy hdocument hidentify]
      rcases record_cases s user body.description new bp site with
        ⟨existing, -, -, heq⟩ | ⟨existing, hget, -, heq⟩ | ⟨hget, heq⟩
      · rw [heq]
        exact hs
      · obtain ⟨-, hsite⟩ := Table.get?_mem hget
        rw [heq]
        refine recorded_put hs ⟨bp, ?_, rfl⟩
        show identify lower refused modelValidate new = some (bp, existing.site)
        rw [hsite, hidentify]
      · rw [heq]
        intro r hr
        rw [assign_rows hget] at hr
        rcases List.mem_append.mp hr with hold | hnew
        · exact hs r hold
        · obtain rfl := List.mem_singleton.mp hnew
          exact ⟨bp, hidentify, rfl⟩
    · rw [hsame]
      exact hs
  | get siteName =>
    obtain rfl := Option.some.inj h
    unfold registryGet
    cases hget : s.get? siteName with
    | none => exact hs
    | some existing => exact recorded_put hs (hs existing (Table.get?_mem hget).1)
  | delete user siteName =>
    obtain rfl := Option.some.inj h
    unfold registryDelete
    cases hget : s.get? siteName with
    | none => exact hs
    | some existing =>
      dsimp only
      split
      · exact hs
      · intro r hr
        exact hs r (List.mem_filter.mp hr).1

/-! ## One domain to a key -/

/-- A record that stands in the way has the key of the new document. -/
theorem clash_of_found {s : Records} (hs : Recorded lower refused modelValidate s)
    {r : BlueprintRecord} (hr : r ∈ s.rows) {new : Json} {bp : BlueprintV2} {site : String}
    (hidentify : identify lower refused modelValidate new = some (bp, site))
    (hsite : r.site = site) (hdomain : lower r.domain ≠ lower bp.domain) :
    Clash lower refused modelValidate r.blueprintJson new := by
  obtain ⟨old, hold, holdDomain⟩ := hs r hr
  rw [hsite] at hold
  rw [holdDomain] at hdomain
  exact ⟨old, bp, site, hold, hidentify, hdomain⟩

theorem oneDomain_of_apart {s : Records} (hs : Recorded lower refused modelValidate s)
    {user : User} {body : Body}
    (h : Apart lower refused modelValidate floatRepr s (.publish user body)) :
    OneDomainBy lower refused modelValidate floatRepr explain s user body := by
  rcases registryPublish_cases lower refused modelValidate floatRepr explain s user body with
    ⟨new, bp, site, htruthy, hdocument, hidentify⟩ | ⟨hsame, hanswer⟩
  · have hresult : registryPublish lower refused modelValidate floatRepr explain s user body =
        record s user body.description new bp site :=
      registryPublish_of_identify htruthy hdocument hidentify
    have hdomain : ∀ r ∈ s.rows, r.site = site → lower r.domain = lower bp.domain := by
      intro r hr hsite
      by_contra hne
      exact h new htruthy hdocument r hr (clash_of_found hs hr hidentify hsite hne)
    have hunique : ∀ {bp' : BlueprintV2} {site' : String},
        (document floatRepr body.blueprint).bind (identify lower refused modelValidate) =
          some (bp', site') → bp' = bp ∧ site' = site := by
      intro bp' site' heq
      rw [hdocument] at heq
      exact Prod.mk.inj (Option.some.inj (heq.symm.trans hidentify))
    refine ⟨?_, ?_⟩
    · intro bp' site' heq r hr hgone
      obtain ⟨rfl, rfl⟩ := hunique heq
      refine hdomain r hr ?_
      -- a record under another key stays
      by_contra hother
      rw [hresult] at hgone
      rcases record_cases s user body.description new bp' site' with
        ⟨existing, -, -, heq⟩ | ⟨existing, hget, -, heq⟩ | ⟨hget, heq⟩
      · rw [heq] at hgone
        exact hgone hr
      · obtain ⟨-, hsite⟩ := Table.get?_mem hget
        rw [heq] at hgone
        refine hgone (List.mem_map.mpr ⟨r, hr, if_neg ?_⟩)
        show r.site ≠ existing.site
        rw [hsite]
        exact hother
      · rw [heq] at hgone
        refine hgone ?_
        rw [assign_rows hget]
        exact List.mem_append_left _ hr
    · intro bp' site' heq _ r hget
      obtain ⟨rfl, rfl⟩ := hunique heq
      obtain ⟨hr, hsite⟩ := Table.get?_mem hget
      exact hdomain r hr hsite
  · refine ⟨?_, ?_⟩
    · intro bp site _ r hr hgone
      rw [hsame] at hgone
      exact absurd hr hgone
    · intro bp site _ hrefused
      exact absurd hrefused hanswer

/-- A record of the same key is in the way, whoever owns it. -/
theorem apart_of_oneDomain {s : Records} (hs : Recorded lower refused modelValidate s)
    {user : User} {body : Body}
    (h : OneDomainBy lower refused modelValidate floatRepr explain s user body) :
    Apart lower refused modelValidate floatRepr s (.publish user body) := by
  rintro new htruthy hdocument r hr ⟨old, bp, site, hold, hidentify, hne⟩
  obtain ⟨recorded, hrecorded, hrdomain⟩ := hs r hr
  obtain ⟨rfl, rfl⟩ := Prod.mk.inj (Option.some.inj (hrecorded.symm.trans hold))
  rw [← hrdomain] at hne
  have hbind : (document floatRepr body.blueprint).bind (identify lower refused modelValidate) =
      some (bp, r.site) := by
    rw [hdocument]
    exact hidentify
  have hresult : registryPublish lower refused modelValidate floatRepr explain s user body =
      record s user body.description new bp r.site :=
    registryPublish_of_identify htruthy hdocument hidentify
  have hget : s.get? r.site = some r := Table.get?_of_mem hr
  rcases record_cases s user body.description new bp r.site with
    ⟨existing, -, -, heq⟩ | ⟨existing, hfound, -, heq⟩ | ⟨hnone, -⟩
  · -- it belongs to somebody else
    exact hne (h.refused bp r.site hbind (by rw [hresult, heq]) r hget)
  · -- it is written anew, with the domain of the new document
    obtain rfl := Option.some.inj (hfound.symm.trans hget)
    refine hne (h.overwritten bp existing.site hbind existing hr ?_)
    rw [hresult, heq]
    intro hstays
    obtain ⟨x, hx, hxe⟩ := List.mem_map.mp hstays
    have hdomain : existing.domain = bp.domain := by
      split at hxe
      · exact congrArg BlueprintRecord.domain hxe.symm
      · next hsite => exact absurd (congrArg BlueprintRecord.site hxe) hsite
    exact hne (congrArg lower hdomain)
  · rw [hget] at hnone
    cases hnone

/-- Over any history of the registry, records of other domains are left alone exactly if
no published document clashes with one on record. -/
theorem oneDomain_iff (lower : String → String) (refused : List Char → Bool)
    (modelValidate : Engine.Dict → Option BlueprintV2) (floatRepr : String → String)
    (explain : Json → String) (history : List Call) :
    Runs.Along (step lower refused modelValidate floatRepr explain)
        (OneDomain lower refused modelValidate floatRepr explain) Table.empty history ↔
      Runs.Along (step lower refused modelValidate floatRepr explain)
        (Apart lower refused modelValidate floatRepr) Table.empty history := by
  have hsame : ∀ s call, Recorded lower refused modelValidate s →
      (OneDomain lower refused modelValidate floatRepr explain s call ↔
        Apart lower refused modelValidate floatRepr s call) := by
    intro s call hs
    cases call with
    | publish user body => exact ⟨apart_of_oneDomain hs, oneDomain_of_apart hs⟩
    | get siteName => exact Iff.rfl
    | delete user siteName => exact Iff.rfl
  have hempty : Recorded lower refused modelValidate Table.empty := fun r hr => nomatch hr
  exact Runs.along_congr_kept (fun s call t hs _ h => recorded_step hs h) hsame hempty

/-- The keys of two domains are the same exactly if the domains differ at most in case and
in which of point, blank and underscore stand in them. -/
theorem siteKey_eq_iff {a b : String} (ha : lower (underscored a) ≠ "")
    (hb : lower (underscored b) ≠ "") (nameA nameB : String) :
    siteKey lower a nameA = siteKey lower b nameB ↔
      lower (underscored a) = lower (underscored b) := by
  unfold siteKey
  dsimp only
  rw [if_neg ha, if_neg hb]

end

/-! ## Two domains with one key -/

def sampleDocument (domain : String) : Json :=
  .obj [("schema_version", .str "2.0"), ("name", .str "Example"), ("domain", .str domain),
    ("auth", .obj [("steps", .arr [
      .obj [("action", .str "goto"), ("url", .str "https://example.com/login")]])])]

def sampleBlueprint (domain : String) : BlueprintV2 where
  name := "Example"
  domain := domain
  authSteps := [.mk { action := .goto, url := some "https://example.com/login" } [] []]

theorem identify_sampleDocument (domain : String) :
    identify Text.asciiLower (fun _ => false) plainValidate (sampleDocument domain) =
      some (sampleBlueprint domain, siteKey Text.asciiLower domain "Example") := by
  rfl

def alice : User := ⟨1, some "alice", none⟩

def bob : User := ⟨2, some "bob", none⟩

def twoDomains : List Call :=
  [.publish alice { blueprint := sampleDocument "pay.example.com" },
    .publish bob { blueprint := sampleDocument "pay_example.com" }]

/-- The second is refused, though its domain is another one. -/
theorem twoDomains_refused :
    ¬ Runs.Along (step Text.asciiLower (fun _ => false) plainValidate id fun _ => "")
      (OneDomain Text.asciiLower (fun _ => false) plainValidate id fun _ => "") Table.empty
      twoDomains := by
  intro h
  have hkey : siteKey Text.asciiLower "pay.example.com" "Example" = "pay_example_com" := by decide
  have hkey' : siteKey Text.asciiLower "pay_example.com" "Example" = "pay_example_com" := by decide
  have hfirst : ∀ explain : Json → String,
      registryPublish Text.asciiLower (fun _ => false) plainValidate id explain Table.empty alice
        { blueprint := sampleDocument "pay.example.com" } =
      record Table.empty alice (some "") (sampleDocument "pay.example.com")
        (sampleBlueprint "pay.example.com") "pay_example_com" := fun explain =>
    registryPublish_of_identify rfl rfl
      ((identify_sampleDocument _).trans (congrArg (fun key => some (_, key)) hkey))
  have hidentify : identify Text.asciiLower (fun _ => false) plainValidate
      (sampleDocument "pay_example.com") =
        some (sampleBlueprint "pay_example.com", "pay_example_com") :=
    (identify_sampleDocument _).trans (congrArg (fun key => some (_, key)) hkey')
  -- the record of the first publisher is found for the second
  have hsecond : OneDomainBy Text.asciiLower (fun _ => false) plainValidate id (fun _ => "")
      (registryPublish Text.asciiLower (fun _ => false) plainValidate id (fun _ => "") Table.empty alice
        { blueprint := sampleDocument "pay.example.com" }).2 bob
      { blueprint := sampleDocument "pay_example.com" } := h.2.1
  rw [hfirst] at hsecond
  have hget : (record Table.empty alice (some "") (sampleDocument "pay.example.com")
      (sampleBlueprint "pay.example.com") "pay_example_com").2.get? "pay_example_com" =
        some (newRecord alice "pay_example_com" (some "") (sampleDocument "pay.example.com")
          (sampleBlueprint "pay.example.com")) :=
    (Table.get?_assign _ _ _).trans (if_pos rfl)
  have hrefused : ∀ s : Records, registryPublish Text.asciiLower (fun _ => false) plainValidate id
      (fun _ => "") s bob { blueprint := sampleDocument "pay_example.com" } =
        record s bob (some "") (sampleDocument "pay_example.com")
          (sampleBlueprint "pay_example.com") "pay_example_com" := fun s =>
    registryPublish_of_identify rfl rfl hidentify
  have hanswer : ∀ s : Records, s.get? "pay_example_com" =
      some (newRecord alice "pay_example_com" (some "") (sampleDocument "pay.example.com")
        (sampleBlueprint "pay.example.com")) →
      (record s bob (some "") (sampleDocument "pay_example.com")
        (sampleBlueprint "pay_example.com") "pay_example_com").1 = .error ownerError := by
    intro s hs
    unfold record
    rw [hs]
    rfl
  have hsame := hsecond.refused _ _ hidentify (by rw [hrefused]; exact hanswer _ hget) _ hget
  exact absurd hsame (by decide)

end Plaidify.Blueprints.Registry
