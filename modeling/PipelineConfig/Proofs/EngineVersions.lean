import PipelineConfig.Proofs.JsonRoundTrip
import PipelineConfig.Proofs.UrlPaths
import PipelineConfig.Proofs.VersionedPaths

/-!
# Both versions of engines give the same secret

A secret is read from a server in two requests. The first one asks for the engine that serves the path,
and is told where it is mounted and which version it has; the second one asks for the data. The versions
differ in what they do then: an engine of the second version has the data at another path
(`PipelineConfig.KvServer.versionedPath_intercalate_append`), and wrapped in one more object. This file shows that nothing
of this is left in the end (`PipelineConfig.KvServer.secret_same_for_versions`).

Paths are followed from what someone writes to the request that is sent. Slashes too many are dropped
(`PipelineConfig.SecretPath.Writes.normalize_eq`), and the segments that are left have to be plain, so that
the request is for them and for nothing else (`PipelineConfig.KvServer.Reaches.make_eq`).

Of an answer it only matters that it *tells* some data (`PipelineConfig.Http.Response.Tells`), whatever
else is in it. Every text that spells the data does so, unless its objects and arrays stand too deep inside
one another (`PipelineConfig.Json.tells_of_spells`).
-/

namespace PipelineConfig

/-- A plain segment is solid, since all blanks are beyond its characters. -/
theorem Http.PlainSegment.solid {name : String} (h : PlainSegment name) : SecretPath.Solid name where
  ne_empty := h.ne_empty
  slash_notMem := h.slash_notMem
  no_blank c hc := by
    obtain ⟨⟨hlow, hhigh⟩, -⟩ := isPlainChar_iff.mp (h.plain c hc)
    rw [Bool.eq_false_iff]
    intro hblank
    simp only [Text.isBlank, Bool.or_eq_true, Bool.and_eq_true, decide_eq_true_eq] at hblank
    omega

/-! ### What a server answers -/

/-- A response tells some data: the request was carried out, and the content of the response is an
object with one member `data`. -/
structure Http.Response.Tells (r : Http.Response) (data : Json) : Prop where
  success : Http.Status.isSuccess r.status = true
  content : ∃ members, Json.readOutline? r.content = some (.object members) ∧
    members.filter (fun m => m.1 = "data") = [("data", data)]

namespace Json

/-- The text of an object with one member. -/
def memberText (name : String) (cs : List Char) : List Char :=
  '\x7b' :: (quote name ++ [':'] ++ cs ++ ['\x7d'])

variable {levels : Nat} {data data' : Json} {cs : List Char}

theorem spells_memberText (name : String) (h : Spells outline levels (data, data') cs) :
    Spells outline (levels + 1) (.object [(name, data)], .object [(name, data)])
      (memberText name cs) :=
  Spells.object (SpellsMembers.one (isLabel_quote blank_nil name) rfl (.of_spells h))

/-- A response tells what its text spells, as long as it does not have too many levels. -/
theorem tells_of_spells (h : Spells outline 126 (data, data') cs) {status : Http.Status}
    (hstatus : Http.Status.isSuccess status = true) (hcontent : Http.Status.hasContent status = true) :
    (Http.Response.mk status (String.ofList (memberText "data" cs))).Tells data where
  success := hstatus
  content := by
    have hspelled := SpellsPadded.of_spells (spells_memberText "data" h)
    rw [← String.toList_ofList (l := memberText "data" cs)] at hspelled
    refine ⟨[("data", data)], ?_, by simp⟩
    rw [Http.Response.content, if_pos hcontent, readOutline?, readWith?_of_spells hspelled]
    rfl

end Json

namespace KvServer

/-- What is said of the version among the options of an engine; they may be missing. -/
def OptionsSay (options? : Option Json) (version? : Option String) : Prop :=
  (present? options? = none ∧ version? = none) ∨
    ∃ members, options? = some (.object members) ∧ (Assoc.keys members).Nodup ∧
      present? (Assoc.get? members "version") = version?.map Json.string

/-- A record says where an engine is mounted, and which version it has. -/
def Describes (info : Json) (mount : String) (version? : Option String) : Prop :=
  ∃ members, info = .object members ∧ (Assoc.keys members).Nodup ∧
    Assoc.get? members "path" = some (.string mount) ∧
    OptionsSay (Assoc.get? members "options") version?

/-- An engine has a version; without any statement about it this is the first one. -/
def HasVersion (number : Nat) : Option String → Prop
  | none => number = 1
  | some text => if text = "" then number = 1 else version? text = some number

/-- Requests can be made to a server, and the paths of secrets are paths there. -/
structure Reaches (s : KvServer) (server : Http.Request) : Prop where
  made : Http.Request.make .get (s.url "") s.headers "" = .ok server
  query : server.url.query? = none
  fragment : server.url.fragment? = none

/-- Someone who answers requests has an engine of a version mounted at `mount`, by what is answered when
it is asked for the engine of `mount` followed by `rest`. -/
def Mounted (server : Http.Request) (reply : Http.Request → Option Http.Response)
    (mount rest : List String) (version : Nat) : Prop :=
  ∃ response info path version?,
    reply (server.below ("sys/internal/ui/mounts/" ++ "/".intercalate (mount ++ rest)))
      = some response ∧
    response.Tells info ∧ Describes info path version? ∧ SecretPath.Writes path mount ∧
    HasVersion version version?

/-! ### Reading records -/

theorem recordFields?_of_nodup {names : List String} {members : List (String × Json)}
    (h : (Assoc.keys members).Nodup) :
    recordFields? names (.object members) = some (members.filter fun m => names.contains m.1) := by
  rw [recordFields?, if_pos]
  exact h.sublist (List.filter_sublist.map Prod.fst)

theorem responseData?_of_tells {r : Http.Response} {data : Json} (h : r.Tells data) :
    responseData? r.content = some (present? (some data)) := by
  obtain ⟨members, hread, hdata⟩ := h.content
  have hknown : members.filter (fun m => ["data"].contains m.1) = [("data", data)] := by
    rw [← hdata]
    exact List.filter_congr fun m _ => by simp
  rw [responseData?, hread, Option.bind_some, recordFields?]
  simp only [hknown]
  rfl

theorem ofJson?_of_describes {info : Json} {mount : String} {version? : Option String}
    (h : Describes info mount version?) : Mount.ofJson? info = some ⟨mount, version?⟩ := by
  obtain ⟨members, rfl, hnodup, hpath, hoptions⟩ := h
  have hget : ∀ name ∈ ["path", "options"],
      Assoc.get? (members.filter fun m => ["path", "options"].contains m.1) name
        = Assoc.get? members name := by
    intro name hname
    rw [Assoc.get?_filter fun key => ["path", "options"].contains key, if_pos (by simpa using hname)]
  rw [Mount.ofJson?, recordFields?_of_nodup hnodup, Option.bind_eq_bind, Option.bind_some,
    hget "path" (by simp), hget "options" (by simp), hpath]
  simp only [Option.bind_eq_bind, Option.bind_some]
  rcases hoptions with ⟨hnone, rfl⟩ | ⟨options, hsome, hoptions, hversion⟩
  · rw [hnone]
  · have hsays : optionsVersion? (.object options) = some version? := by
      rw [optionsVersion?, recordFields?_of_nodup hoptions, Option.bind_eq_bind, Option.bind_some,
        Assoc.get?_filter fun key => ["version"].contains key, if_pos (by simp), hversion]
      cases version? <;> rfl
    rw [hsome]
    simp only [present?, hsays, Option.bind_some]

/-! ### Requests -/

section Requests

variable {s : KvServer} {server : Http.Request} {path : String} {names : List String}

/-- **What is at a plain path is asked for at this path** of the server. -/
theorem Reaches.make_eq (hs : s.Reaches server) (hne : names ≠ [])
    (hplain : ∀ name ∈ names, Http.PlainSegment name) (hpath : SecretPath.Writes path names) :
    Http.Request.make .get (s.url path) s.headers ""
      = .ok (server.below ("/".intercalate names)) := by
  have hslash : s.address ++ "/v1/" = s.address ++ "/v1" ++ "/" := by
    rw [String.append_assoc]
    rfl
  have hserver : s.url "" = s.address ++ "/v1" ++ "/" := by
    rw [url, show SecretPath.normalize "" = "" by decide +kernel, String.append_empty, hslash]
  have hmade := hs.made
  rw [hserver] at hmade
  rw [url, hpath.normalize_eq fun name hname => (hplain name hname).solid, hslash]
  exact Http.Request.make_append_segments hmade hs.query hs.fragment hne hplain

variable {reply : Http.Request → Option Http.Response} {response : Http.Response}

/-- Data is read from the response for its path. -/
theorem run_readData (hs : s.Reaches server) (hne : names ≠ [])
    (hplain : ∀ name ∈ names, Http.PlainSegment name) (hpath : SecretPath.Writes path names)
    (hreply : reply (server.below ("/".intercalate names)) = some response) :
    (response.status = 404 → ((s.readData path).run reply).1 = .ok none) ∧
      ∀ data, response.Tells data → ((s.readData path).run reply).1 = .ok (present? (some data)) := by
  rw [readData, hs.make_eq hne hplain hpath]
  simp only [Http.send, bind, Dialog.bind, Dialog.run, hreply]
  constructor
  · intro hmissing
    rw [if_pos hmissing]
    rfl
  · intro data htells
    have hfound : response.status ≠ 404 := by
      intro hmissing
      have hsuccess := htells.success
      rw [hmissing] at hsuccess
      cases hsuccess
    rw [if_neg hfound, if_neg (by simp [htells.success]), responseData?_of_tells htells]
    rfl

/-- **The engine that serves a path** is the one that is mounted there. -/
theorem run_engine (hs : s.Reaches server) {mount rest : List String} (hne : mount ≠ [])
    (hplain : ∀ name ∈ mount ++ rest, Http.PlainSegment name) {version : Nat}
    (hmounted : Mounted server reply mount rest version) :
    ∃ path, SecretPath.Writes path mount ∧
      ((s.engine ("/".intercalate (mount ++ rest))).run reply).1 = .ok (path, version) := by
  obtain ⟨response, info, path, version?, hreply, htells, hinfo, hpath, hversion⟩ := hmounted
  refine ⟨path, hpath, ?_⟩
  let lookup := ["sys", "internal", "ui", "mounts"]
  have hlookup : ∀ name ∈ lookup, Http.PlainSegment name := by decide
  have hjoined : "sys/internal/ui/mounts/" ++ "/".intercalate (mount ++ rest)
      = "/".intercalate (lookup ++ (mount ++ rest)) := by
    have hstart : "/".intercalate lookup ++ "/" = "sys/internal/ui/mounts/" := by decide +kernel
    rw [String.intercalate_append_of_ne_nil (l := lookup) (List.cons_ne_nil _ _)
      (List.append_ne_nil_of_left_ne_nil hne rest), hstart]
  have hall : ∀ name ∈ lookup ++ (mount ++ rest), Http.PlainSegment name := fun name hname =>
    (List.mem_append.mp hname).elim (hlookup name) (hplain name)
  have hwrites : SecretPath.Writes ("sys/internal/ui/mounts/" ++ "/".intercalate (mount ++ rest))
      (lookup ++ (mount ++ rest)) := hjoined ▸ SecretPath.writes_intercalate fun name hname =>
        (hall name hname).solid
  rw [hjoined] at hreply
  have hread := (run_readData hs (by simp [lookup]) hall hwrites hreply).2 info htells
  obtain ⟨members, rfl, hmembers⟩ := id hinfo
  rw [engine, Dialog.run_bind_fst, hread]
  simp only [present?, ofJson?_of_describes hinfo]
  rcases version? with _ | text
  · obtain rfl : version = 1 := hversion
    rfl
  · rw [HasVersion] at hversion
    split at hversion
    · subst text version
      rfl
    · rename_i hempty
      simp only [hversion]
      rfl

end Requests

/-! ### Secrets -/

variable {s : KvServer} {server : Http.Request} {path : String} {mount rest : List String}
  {reply : Http.Request → Option Http.Response} {response : Http.Response}

/-- With the first version, a secret is the data at its own path. -/
theorem run_secret_first (hs : s.Reaches server) (hmount : mount ≠ [])
    (hplain : ∀ name ∈ mount ++ rest, Http.PlainSegment name)
    (hpath : SecretPath.Writes path (mount ++ rest)) (hmounted : Mounted server reply mount rest 1)
    (hreply : reply (server.below ("/".intercalate (mount ++ rest))) = some response) :
    (response.status = 404 → ((s.secret path).run reply).1 = .ok none) ∧
      ∀ data, response.Tells data → ((s.secret path).run reply).1
        = secretOf ("/".intercalate (mount ++ rest)) data := by
  obtain ⟨mounted, -, hengine⟩ := run_engine hs hmount hplain hmounted
  have hsolid : ∀ name ∈ mount ++ rest, SecretPath.Solid name := fun name hname => (hplain name hname).solid
  have hread := run_readData hs (List.append_ne_nil_of_left_ne_nil hmount rest) hplain
    (SecretPath.writes_intercalate hsolid) hreply
  rw [secret, hpath.normalize_eq hsolid, Dialog.run_bind_fst, hengine]
  simp only [if_true]
  rw [Dialog.run_bind_fst]
  constructor
  · intro hmissing
    rw [hread.1 hmissing]
    rfl
  · intro data htells
    rw [hread.2 data htells]
    cases data <;> rfl

/-- With the second version, a secret is the data in the data at the path under `data`. -/
theorem run_secret_second (hs : s.Reaches server) (hmount : mount ≠ []) (_ : rest ≠ [])
    (hplain : ∀ name ∈ mount ++ rest, Http.PlainSegment name)
    (hpath : SecretPath.Writes path (mount ++ rest)) (hmounted : Mounted server reply mount rest 2)
    (hreply : reply (server.below ("/".intercalate (mount ++ "data" :: rest))) = some response) :
    (response.status = 404 → ((s.secret path).run reply).1 = .ok none) ∧
      ∀ members data, response.Tells (.object members) → Assoc.get? members "data" = some data →
        ((s.secret path).run reply).1 = secretOf ("/".intercalate (mount ++ rest)) data := by
  obtain ⟨mounted, hmountedPath, hengine⟩ := run_engine hs hmount hplain hmounted
  have hsolid : ∀ name ∈ mount ++ rest, SecretPath.Solid name := fun name hname => (hplain name hname).solid
  have hversioned := versionedPath_intercalate_append (List.forall_mem_append.mp hsolid).1
    (List.forall_mem_append.mp hsolid).2 hmountedPath
  have hplainData : ∀ name ∈ mount ++ "data" :: rest, Http.PlainSegment name := by
    simp only [List.forall_mem_append, List.forall_mem_cons] at hplain ⊢
    exact ⟨hplain.1, by decide, hplain.2⟩
  have hread := run_readData hs (List.append_ne_nil_of_left_ne_nil hmount ("data" :: rest)) hplainData
    (SecretPath.writes_intercalate fun name hname => (hplainData name hname).solid) hreply
  rw [secret, hpath.normalize_eq hsolid, Dialog.run_bind_fst, hengine]
  have htwo : ¬ (2 : Nat) = 1 := by decide
  simp only [hversioned, if_neg htwo, if_true]
  rw [Dialog.run_bind_fst]
  constructor
  · intro hmissing
    rw [hread.1 hmissing]
    rfl
  · intro members data htells hdata
    rw [hread.2 _ htells]
    simp only [present?, unwrap, hdata]
    rfl

/-- **What data means** as the secret at a path. -/
inductive Means (path : String) : Json → Except SecretError (Option SecretData) → Prop
  /-- There is no secret. -/
  | null : Means path .null (.ok none)
  /-- The secret has the fields of an object: a text as it is, anything else as JSON. -/
  | object {members : List (String × Json)} {secret : SecretData} (hsorted : Assoc.Sorted secret)
      (hfields : ∀ field,
        Assoc.get? secret field = (Assoc.last? members field).map fieldText) :
      Means path (.object members) (.ok (some secret))
  /-- Nothing else is a secret. -/
  | other {data : Json} (hnull : data ≠ .null) (hobject : ∀ members, data ≠ .object members) :
      Means path data (.error (.store path .dataNotObject))

theorem means_secretOf (path : String) (data : Json) : Means path data (secretOf path data) := by
  cases data with
  | null => exact .null
  | object members =>
    refine .object (Assoc.sorted_ofList _) fun field => ?_
    rw [Assoc.get?_ofList, Assoc.last?_mapValues]
  | _ => exact .other (by simp) (by simp)

/-- **Both versions of engines give the same secret**, for the same data: once as it is, and once inside
of the data at the path under `data`. If there is nothing at the path that is asked for, there is no
secret. -/
theorem secret_same_for_versions (hs : s.Reaches server) (hmount : mount ≠ []) (hrest : rest ≠ [])
    (hplain : ∀ name ∈ mount ++ rest, Http.PlainSegment name)
    (hpath : SecretPath.Writes path (mount ++ rest))
    {first second : Http.Request → Option Http.Response} (hfirst : Mounted server first mount rest 1)
    (hsecond : Mounted server second mount rest 2) {response response' : Http.Response}
    (hreply : first (server.below ("/".intercalate (mount ++ rest))) = some response)
    (hreply' : second (server.below ("/".intercalate (mount ++ "data" :: rest))) = some response') :
    let result := ((s.secret path).run first).1
    let result' := ((s.secret path).run second).1
    (∀ data members, response.Tells data → response'.Tells (.object members) →
      Assoc.get? members "data" = some data →
        result = result' ∧ Means ("/".intercalate (mount ++ rest)) data result) ∧
    (response.status = 404 → result = .ok none) ∧ (response'.status = 404 → result' = .ok none) := by
  intro result result'
  obtain ⟨hmissing, hdata⟩ := run_secret_first hs hmount hplain hpath hfirst hreply
  obtain ⟨hmissing', hdata'⟩ := run_secret_second hs hmount hrest hplain hpath hsecond hreply'
  refine ⟨fun data members htells htells' hinner => ?_, hmissing, hmissing'⟩
  have hresult : result = secretOf ("/".intercalate (mount ++ rest)) data := hdata data htells
  have hresult' : result' = secretOf ("/".intercalate (mount ++ rest)) data :=
    hdata' members data htells' hinner
  rw [hresult, hresult']
  exact ⟨rfl, means_secretOf _ data⟩

/-- A secret whose field is a number, asked for with slashes too many. -/
theorem secret_same_for_versions_port :
    let s : KvServer := ⟨"http://vault", "token", none⟩
    let server : Http.Request :=
      ⟨.get, ⟨"http", some "vault", "/v1/", none, none⟩, [("x-vault-token", "token")], ""⟩
    let answering (routes : List (String × List Char)) : Http.Request → Option Http.Response :=
      fun request => (routes.lookup request.url.target).map fun cs =>
        ⟨200, String.ofList (Json.memberText "data" cs)⟩
    let lookup := "/v1/sys/internal/ui/mounts/kv/team/app"
    let first := answering [(lookup, "\x7b\"path\":\"kv/\"\x7d".toList),
      ("/v1/kv/team/app", "\x7b\"port\":5432\x7d".toList)]
    let second := answering
      [(lookup, "\x7b\"options\":\x7b\"version\":\"2\"\x7d,\"path\":\"kv/\"\x7d".toList),
        ("/v1/kv/data/team/app", "\x7b\"data\":\x7b\"port\":5432\x7d\x7d".toList)]
    let result := ((s.secret "/kv//team/app/").run first).1
    s.Reaches server ∧ Mounted server first ["kv"] ["team", "app"] 1 ∧
      Mounted server second ["kv"] ["team", "app"] 2 ∧
      result = .ok (some [("port", "5432")]) ∧
      result = ((s.secret "/kv//team/app/").run second).1 := by
  intro s server answering lookup first second result
  have hserver : s.Reaches server := ⟨by decide +kernel, rfl, rfl⟩
  -- the objects that are in the answers
  have hplace : Json.Spells Json.outline 126 _ "\x7b\"path\":\"kv/\"\x7d".toList :=
    Json.spells_memberText "path" (.string "kv/")
  have hfields : ∀ levels, Json.Spells Json.outline (levels + 1) _ "\x7b\"port\":5432\x7d".toList :=
    fun _ => Json.spells_memberText "port" (.int (n := 5432) (by decide))
  have hwrapped : Json.Spells Json.outline 126 _
      "\x7b\"data\":\x7b\"port\":5432\x7d\x7d".toList := Json.spells_memberText "data" (hfields 124)
  let info := [("options", Json.object [("version", .string "2")]), ("path", .string "kv/")]
  have hinfo : Json.outline.object (Assoc.mapValues (fun j => (j, j)) info)
      = (.object info, .object info) := by
    have hsorted : Assoc.Sorted info := by
      simp only [Assoc.Sorted, info]
      decide
    exact Prod.ext (congrArg Json.object (Assoc.ofList_of_sorted hsorted)) rfl
  have hversioned : Json.Spells Json.outline 126 (.object info, .object info)
      "\x7b\"options\":\x7b\"version\":\"2\"\x7d,\"path\":\"kv/\"\x7d".toList :=
    hinfo ▸ Json.Spells.object
      (.more (Json.isLabel_quote Json.blank_nil "options") rfl
        (.of_spells (Json.spells_memberText "version" (.string "2")))
        (.one (Json.isLabel_quote Json.blank_nil "path") rfl (.of_spells (.string "kv/"))))
  have hmount : SecretPath.segments "kv/".toList = ["kv"].map String.toList := by decide +kernel
  have hfirst : Mounted server first ["kv"] ["team", "app"] 1 := by
    refine ⟨⟨200, _⟩, _, "kv/", none, by decide +kernel, Json.tells_of_spells hplace rfl rfl,
      ⟨_, rfl, by decide, ?_, .inl ⟨?_, rfl⟩⟩, hmount, rfl⟩
    · simp [Assoc.get?_cons]
    · simp [Assoc.get?_cons, present?]
  have hsecond : Mounted server second ["kv"] ["team", "app"] 2 := by
    refine ⟨⟨200, _⟩, _, "kv/", some "2", by decide +kernel, Json.tells_of_spells hversioned rfl rfl,
      ⟨_, rfl, by decide, ?_, .inr ⟨[("version", .string "2")], ?_, by decide, ?_⟩⟩, hmount, ?_⟩
    · simp [info, Assoc.get?_cons]
    · simp [info, Assoc.get?_cons]
    · simp [Assoc.get?_cons, present?]
    · rw [HasVersion, if_neg (by decide)]
      decide +kernel
  have hpath : SecretPath.Writes "/kv//team/app/" (["kv"] ++ ["team", "app"]) :=
    show SecretPath.segments "/kv//team/app/".toList = ["kv", "team", "app"].map String.toList by
      decide +kernel
  have hreply : first (server.below ("/".intercalate (["kv"] ++ ["team", "app"])))
      = some ⟨200, String.ofList (Json.memberText "data" "\x7b\"port\":5432\x7d".toList)⟩ := by
    decide +kernel
  have hreply' : second (server.below ("/".intercalate (["kv"] ++ "data" :: ["team", "app"])))
      = some ⟨200, String.ofList (Json.memberText "data"
        "\x7b\"data\":\x7b\"port\":5432\x7d\x7d".toList)⟩ := by
    decide +kernel
  have hsame := (secret_same_for_versions hserver (by decide) (by decide) (by decide) hpath hfirst
    hsecond hreply hreply').1 (.object [("port", .int 5432)]) _ (Json.tells_of_spells (hfields 125) rfl rfl)
    (Json.tells_of_spells hwrapped rfl rfl) (by simp [Assoc.get?_cons])
  exact ⟨hserver, hfirst, hsecond, by decide +kernel, hsame.1⟩

end KvServer

end PipelineConfig
