import OttQuic.Http.Api
import OttQuic.Lib.Pathname

/-!
# Static files (`handle_static_file`)

What the server opens for a request target. The target is cut at a query or a fragment, refused when two
dots stand in a row, and read under `web`, or under the working directory when it begins with `/data/`.
The database `main` opens is `data/ott.db`: the second case reaches it. A target is kept to public content
exactly when, in that case, it goes to one of the directories the server writes media to.
-/

namespace OttQuic.Http

open CString Pathname

/-- What `stat` reports. -/
structure FileStat where
  isDir : Bool
  size : Nat

/-- The file system and the memory, as `handle_static_file` meets them. -/
structure StaticEnv where
  stat : Bytes → Option FileStat
  /-- What `fread` can get of the file, when `fopen` opens it. -/
  read : Bytes → Option Bytes
  malloc : Nat → Bool

inductive FileCall where
  | stat (path : Bytes)
  | fopen (path : Bytes)
  deriving DecidableEq

def FileCall.path : FileCall → Bytes
  | .stat path => path
  | .fopen path => path

structure StaticResult where
  /-- `none` when it returns `-1` before it sends anything. -/
  answer : Option Answer
  calls : List FileCall

def StaticResult.ofReply (reply : Reply) (calls : List FileCall) : StaticResult :=
  ⟨some (.reply reply), calls⟩

def pathMax : Nat := 4096

/-- The extensions `guess_mime` knows. -/
def mimeTypes : List (Bytes × Bytes) :=
  [(".html", "text/html; charset=utf-8"), (".htm", "text/html; charset=utf-8"),
    (".js", "application/javascript; charset=utf-8"), (".css", "text/css; charset=utf-8"),
    (".json", "application/json; charset=utf-8"), (".png", "image/png"), (".jpg", "image/jpeg"),
    (".jpeg", "image/jpeg"), (".mp4", "video/mp4"), (".m3u8", "application/vnd.apple.mpegurl"),
    (".svg", "image/svg+xml")].map fun entry => (ascii entry.1, ascii entry.2)

/-- `guess_mime`. -/
def guessMime (path : Bytes) : Bytes :=
  (((strrchr 46 path).bind fun dot => mimeTypes.find? fun entry => eqIgnoreCase dot entry.1).map
    Prod.snd).getD (ascii "application/octet-stream")

/-- The bytes `http_send_file` writes; its header has room for 1024. -/
def httpSendFile (statusLine headers body : Bytes) (sendBody : Bool) : Option Bytes :=
  let head := statusLine ++ ascii "Content-Length: " ++ decimal body.length ++ ascii "\r\n" ++
    headers ++ ascii "\r\n"
  if head.length ≥ 1024 then none else some (head ++ if sendBody then body else [])

def badPath : Reply := textReply "400 Bad Request" "bad-path"

def pathTooLong : Reply := textReply "414 URI Too Long" "path-too-long"

/-- The copy of the target: up to its query, its fragment or 255 bytes. -/
def staticPath (rawPath : Bytes) : Bytes :=
  (rawPath.takeWhile fun c => c ≠ 0 ∧ c ≠ 63 ∧ c ≠ 35).take 255

/-- `base_dir` and `subpath`: nothing when the index of a directory has too long a name. -/
def staticSubpath (path : Bytes) : Option (Bytes × Bytes) :=
  if path = ascii "/" then some (ascii "web", ascii "index.html")
  else if ascii "/data/" <+: path then some ([], path.tail)
  else if path.tail.getLast? = some 47 then
    let rel := path.tail ++ ascii "index.html"
    if rel.length ≥ 256 then none else some (ascii "web", rel)
  else some (ascii "web", path.tail)

/-- `fs_path`. -/
def fsPath (baseDir rel : Bytes) : Bytes := baseDir ++ (if baseDir = [] then [] else ascii "/") ++ rel

/-- The end of `handle_static_file`: the file at `path`, which the client calls `rel`. -/
def serveFile (env : StaticEnv) (req : HttpRequest) (rel path : Bytes) : StaticResult :=
  match (env.stat path).filter fun st => st.isDir = false with
  | none =>
    if rel = ascii "favicon.ico" then
      ⟨(httpSendFile (ascii "HTTP/1.1 204 No Content\r\n") (ascii "Content-Type: image/x-icon\r\n") []
        false).map .raw, [.stat path]⟩
    else .ofReply (textReply "404 Not Found" "not-found") [.stat path]
  | some st =>
    if st.size > 10 * 1024 * 1024 then
      .ofReply (textReply "413 Payload Too Large" "file-too-large") [.stat path]
    else
      let calls := [.stat path, .fopen path]
      match env.read path with
      | none => .ofReply (textReply "500 Internal Server Error" "open-failed") calls
      | some content =>
        if env.malloc st.size = false then
          .ofReply (textReply "500 Internal Server Error" "oom") calls
        else
          let buf := content.take st.size
          if buf.length ≠ st.size then
            .ofReply (textReply "500 Internal Server Error" "read-failed") calls
          else
            let headers := ascii "Content-Type: " ++ guessMime path ++ ascii "\r\n"
            if headers.length ≥ 256 then .ofReply headerTooLong calls
            else
              ⟨(httpSendFile (ascii "HTTP/1.1 200 OK\r\n") headers buf
                (req.hasMethod "HEAD" = false)).map .raw, calls⟩

def handleStaticFile (env : StaticEnv) (req : HttpRequest) : StaticResult :=
  if req.hasMethod "GET" = false ∧ req.hasMethod "HEAD" = false then
    .ofReply (textReply "405 Method Not Allowed" "method-not-allowed") []
  else if req.path.head? ≠ some 47 then .ofReply badPath []
  else
    let path := staticPath req.path
    if (strstr (ascii "..") path).isSome then .ofReply (textReply "400 Bad Request" "invalid-path") []
    else
      match staticSubpath path with
      | none => .ofReply pathTooLong []
      | some (baseDir, subpath) =>
        if subpath = [] then .ofReply badPath []
        else
          let rel := subpath.take 255
          if (fsPath baseDir rel).length ≥ pathMax then .ofReply pathTooLong []
          else serveFile env req rel (fsPath baseDir rel)

/-! ### What is opened -/

theorem serveFile_calls (env : StaticEnv) (req : HttpRequest) (rel path : Bytes) :
    (serveFile env req rel path).calls = [.stat path] ∨
      (serveFile env req rel path).calls = [.stat path, .fopen path] := by
  rw [serveFile]
  cases (env.stat path).filter fun st => st.isDir = false with
  | none =>
      left
      dsimp only
      split_ifs <;> rfl
  | some st =>
      cases env.read path with
      | none =>
          dsimp only
          split_ifs
          · exact .inl rfl
          · exact .inr rfl
      | some content =>
          dsimp only
          split_ifs
          · exact .inl rfl
          all_goals exact .inr rfl

theorem serveFile_path {env : StaticEnv} {req : HttpRequest} {rel path : Bytes} {call : FileCall}
    (h : call ∈ (serveFile env req rel path).calls) : call.path = path := by
  have hmem : call ∈ [.stat path, .fopen path] := by
    obtain hcalls | hcalls := serveFile_calls env req rel path
    · rw [hcalls] at h
      exact List.mem_cons.mpr (.inl (List.mem_singleton.mp h))
    · rwa [hcalls] at h
  obtain rfl | hfopen := List.mem_cons.mp hmem
  · rfl
  · rw [List.mem_singleton.mp hfopen, FileCall.path]

theorem serveFile_stat (env : StaticEnv) (req : HttpRequest) (rel path : Bytes) :
    .stat path ∈ (serveFile env req rel path).calls := by
  obtain hcalls | hcalls := serveFile_calls env req rel path <;>
    exact hcalls ▸ List.mem_cons_self

theorem handleStaticFile_cases (env : StaticEnv) (req : HttpRequest) :
    (handleStaticFile env req).calls = [] ∨ ∃ baseDir subpath,
      (req.hasMethod "GET" ∨ req.hasMethod "HEAD") ∧ ¬ ascii ".." <:+: staticPath req.path ∧
      staticSubpath (staticPath req.path) = some (baseDir, subpath) ∧
      handleStaticFile env req =
        serveFile env req (subpath.take 255) (fsPath baseDir (subpath.take 255)) := by
  rw [handleStaticFile]
  dsimp only
  split_ifs with hmethod hslash hdots
  · exact .inl rfl
  · exact .inl rfl
  · exact .inl rfl
  · cases hsub : staticSubpath (staticPath req.path) with
    | none => exact .inl rfl
    | some target =>
        dsimp only
        split_ifs with hempty hlong
        · exact .inl rfl
        · exact .inl rfl
        · refine .inr ⟨target.1, target.2, ?_, fun h => hdots (strstr_isSome.mpr h), rfl, rfl⟩
          by_contra hneither
          rw [not_or, Bool.not_eq_true, Bool.not_eq_true] at hneither
          exact hmethod hneither

/-! ### What is public -/

/-- The directories under `data` that uploads are written to. -/
def mediaDirs : List Bytes := [ascii "videos", ascii "thumbs", ascii "segments"]

def publicDirs : List Bytes := ascii "web" :: mediaDirs.map fun dir => ascii "data/" ++ dir

/-- In a directory whose files are for everyone. -/
def Public (path : Bytes) : Prop := NoParent path ∧ ∃ dir ∈ publicDirs, Under dir path

/-- The path `main` hands to `db_init`. -/
def databasePath : Bytes := ascii "data/ott.db"

instance (path : Bytes) : Decidable (Public path) :=
  inferInstanceAs (Decidable (NoParent path ∧ ∃ dir ∈ publicDirs, Under dir path))

theorem Public.names_ne {path : Bytes} (h : Public path) : names path ≠ names databasePath := by
  intro hnames
  obtain ⟨-, dir, hdir, hunder⟩ := h
  rw [Under, hnames] at hunder
  have hnone : ∀ dir ∈ publicDirs, ¬ Under dir databasePath := by decide
  exact hnone dir hdir hunder

theorem staticPath_length (rawPath : Bytes) : (staticPath rawPath).length ≤ 255 := List.length_take_le _ _

theorem public_web {rel : Bytes} (h : NoParent rel) : Public (fsPath (ascii "web") rel) := by
  have hpath : fsPath (ascii "web") rel = ascii "web" ++ 47 :: rel := rfl
  rw [hpath]
  exact ⟨noParent_append.mpr ⟨by decide, h⟩, _, List.mem_cons_self, under_append _ _⟩

theorem public_data {rest : Bytes} (h : NoParent rest) :
    Public (ascii "data/" ++ rest) ↔ ∃ dir ∈ mediaDirs, Under dir rest := by
  have hdata : ∀ path, names (ascii "data/" ++ path) = ascii "data" :: names path :=
    fun path => names_append (ascii "data") path
  have hunder : ∀ dir, Under (ascii "data/" ++ dir) (ascii "data/" ++ rest) ↔ Under dir rest := by
    intro dir
    rw [Under, hdata, hdata, List.prefix_cons_inj, Under]
  have hweb : ¬ Under (ascii "web") (ascii "data/" ++ rest) := by
    rw [Under, hdata, show names (ascii "web") = [ascii "web"] by decide, List.cons_prefix_cons]
    exact fun hprefix => absurd hprefix.1 (by decide)
  constructor
  · rintro ⟨-, dir, hdir, hdirUnder⟩
    obtain rfl | hmedia := List.mem_cons.mp hdir
    · exact absurd hdirUnder hweb
    · obtain ⟨media, hmem, rfl⟩ := List.mem_map.mp hmedia
      exact ⟨media, hmem, (hunder media).mp hdirUnder⟩
  · rintro ⟨media, hmem, hmediaUnder⟩
    have hparent : NoParent (ascii "data" ++ 47 :: rest) := noParent_append.mpr ⟨by decide, h⟩
    exact ⟨hparent, ascii "data/" ++ media, List.mem_cons_of_mem _ (List.mem_map_of_mem hmem),
      (hunder media).mpr hmediaUnder⟩

/-! ### Targets -/

theorem noParent_of_infix_path {path rel : Bytes} (hdots : ¬ ascii ".." <:+: path) (hrel : rel <:+: path) :
    NoParent rel :=
  noParent_of_not_infix fun h => hdots (List.IsInfix.trans h hrel)

theorem noParent_index {path : Bytes} (hdots : ¬ ascii ".." <:+: path) (hslash : path.tail.getLast? = some 47) :
    NoParent (path.tail ++ ascii "index.html") := by
  obtain ⟨dir, hdir⟩ : ∃ dir, path.tail = dir ++ [47] :=
    ⟨path.tail.dropLast, (List.dropLast_append_getLast? 47 hslash).symm⟩
  rw [hdir, List.append_assoc, List.singleton_append]
  have htail : dir ++ [47] <:+: path := hdir ▸ (List.tail_suffix path).isInfix
  exact noParent_append.mpr
    ⟨noParent_of_infix_path hdots ((List.prefix_append dir [47]).isInfix.trans htail), by decide⟩

theorem staticSubpath_cases {path baseDir subpath : Bytes}
    (h : staticSubpath path = some (baseDir, subpath)) (hdots : ¬ ascii ".." <:+: path) :
    baseDir = ascii "web" ∧ NoParent (subpath.take 255) ∨
      ascii "/data/" <+: path ∧ baseDir = [] ∧ subpath = path.tail := by
  have hcopied : ∀ rel, rel <:+: path → NoParent (rel.take 255) := fun rel hrel =>
    noParent_of_infix_path hdots ((List.take_prefix 255 rel).isInfix.trans hrel)
  rw [staticSubpath] at h
  dsimp only at h
  split_ifs at h with hroot hdata hslash hlong
  · obtain ⟨rfl, rfl⟩ := Prod.mk.inj (Option.some.inj h)
    exact .inl ⟨rfl, by decide⟩
  · obtain ⟨rfl, rfl⟩ := Prod.mk.inj (Option.some.inj h)
    exact .inr ⟨hdata, rfl, rfl⟩
  · obtain ⟨rfl, rfl⟩ := Prod.mk.inj (Option.some.inj h)
    refine .inl ⟨rfl, ?_⟩
    rw [List.take_of_length_le (by omega)]
    exact noParent_index hdots hslash
  · obtain ⟨rfl, rfl⟩ := Prod.mk.inj (Option.some.inj h)
    exact .inl ⟨rfl, hcopied _ (List.tail_suffix path).isInfix⟩

theorem handleStaticFile_data {env : StaticEnv} {req : HttpRequest} {rest : Bytes}
    (hmethod : req.hasMethod "GET" ∨ req.hasMethod "HEAD") (hpath : staticPath req.path = ascii "/data/" ++ rest)
    (hdots : ¬ ascii ".." <:+: staticPath req.path) :
    handleStaticFile env req = serveFile env req (ascii "data/" ++ rest) (ascii "data/" ++ rest) := by
  have hrel : staticSubpath (staticPath req.path) = some ([], ascii "data/" ++ rest) := by
    rw [hpath, staticSubpath, if_neg (by simp [ascii]), if_pos (List.prefix_append _ _)]
    rfl
  have hlength : (ascii "data/" ++ rest).length ≤ 254 := by
    have := staticPath_length req.path
    rw [hpath] at this
    have htail : (ascii "/data/" ++ rest).length = (ascii "data/" ++ rest).length + 1 := rfl
    omega
  have hslash : req.path.head? = some 47 := by
    cases hraw : req.path with
    | nil => rw [hraw] at hpath; exact absurd hpath (by simp [staticPath, ascii])
    | cons c raw =>
        rw [hraw, staticPath, List.takeWhile_cons] at hpath
        split_ifs at hpath with hc
        · have hhead : c = 47 := (List.cons.inj hpath).1
          rw [hhead, List.head?_cons]
        · exact absurd hpath (by simp [ascii])
  rw [handleStaticFile, if_neg (by grind), if_neg (not_not_intro hslash)]
  dsimp only
  rw [if_neg (fun h => hdots (strstr_isSome.mp h)), hrel]
  dsimp only
  rw [if_neg (by simp [ascii]), List.take_of_length_le (by omega), fsPath, if_pos rfl, List.nil_append,
    List.nil_append, if_neg (by rw [pathMax]; omega)]

/-- What is opened is public exactly when a target under `/data/` goes on to a media directory. -/
theorem staticFile_public_iff (env : StaticEnv) (req : HttpRequest) :
    (∀ call ∈ (handleStaticFile env req).calls,
        Public call.path ∧ names call.path ≠ names databasePath) ↔
      ((req.hasMethod "GET" ∨ req.hasMethod "HEAD") → ¬ ascii ".." <:+: staticPath req.path →
        ∀ rest, staticPath req.path = ascii "/data/" ++ rest → ∃ dir ∈ mediaDirs, Under dir rest) := by
  constructor
  · intro hpublic hmethod hdots rest hpath
    rw [handleStaticFile_data hmethod hpath hdots] at hpublic
    have hrest : rest <:+: staticPath req.path := hpath ▸ (List.suffix_append _ rest).isInfix
    exact (public_data (noParent_of_infix_path hdots hrest)).mp (hpublic _ (serveFile_stat env req _ _)).1
  · intro hmedia call hcall
    have hpublic : Public call.path := by
      obtain hnone | ⟨baseDir, subpath, hmethod, hdots, hsub, hserve⟩ := handleStaticFile_cases env req
      · exact absurd (hnone ▸ hcall) List.not_mem_nil
      · obtain ⟨rfl, hparent⟩ | ⟨hdata, rfl, rfl⟩ := staticSubpath_cases hsub hdots
        · rw [hserve] at hcall
          exact serveFile_path hcall ▸ public_web hparent
        · obtain ⟨rest, hrest⟩ := hdata
          rw [handleStaticFile_data hmethod hrest.symm hdots] at hcall
          rw [serveFile_path hcall]
          have hinfix : rest <:+: staticPath req.path := hrest ▸ (List.suffix_append _ rest).isInfix
          exact (public_data (noParent_of_infix_path hdots hinfix)).mpr (hmedia hmethod hdots rest hrest.symm)
    exact ⟨hpublic, hpublic.names_ne⟩

/-- `GET /data/ott.db` opens the database. -/
theorem database_not_public :
    ¬ ∀ (env : StaticEnv) (req : HttpRequest), ∀ call ∈ (handleStaticFile env req).calls,
      Public call.path ∧ names call.path ≠ names databasePath := by
  intro hpublic
  let env : StaticEnv :=
    ⟨fun path => if path = databasePath then some ⟨false, 6⟩ else none,
      fun path => if path = databasePath then some (ascii "SQLite") else none, fun _ => true⟩
  let req : HttpRequest := ⟨ascii "GET", ascii "/data/ott.db", ascii "HTTP/1.1", []⟩
  have hopened : .fopen databasePath ∈ (handleStaticFile env req).calls := by decide
  exact (hpublic env req _ hopened).2 rfl

end OttQuic.Http
