import SetadJang.Framework.PyUrl
import SetadJang.Framework.Txn
import SetadJang.Tabyin.Model

/-!
# The guard of the mirror

`mirror_attachment_to_local` follows redirects by hand and checks the URL of every turn: its
host must be a global address, or a name whose addresses are all global.  `requests.get` then
looks the name up again and connects to what it finds.  The two lookups are two questions to
the resolver; the guard keeps the connection on global addresses exactly where the second
answer is as good as the first.
-/

namespace SetadJang.Tabyin

open SetadJang.Framework SetadJang.Framework.Txn

/-- What stops a mirror: a `MirrorError`, or an exception that nothing here catches. -/
inductive MirrorFailure where
  | mirrorError (message : String)
  | valueError
  | lookupError
deriving DecidableEq, Repr

/-- `socket.gaierror`, or another exception of `getaddrinfo`. -/
inductive LookupFailure where
  | gaierror
  | other
deriving DecidableEq, Repr

/-- The addresses that `getaddrinfo` answers for a host. -/
abbrev Lookup := Except LookupFailure (List (List Char))

structure MirrorResponse where
  status : ℕ
  location : Option String
deriving DecidableEq, Repr

/-- What one turn of the loop meets: the resolver when the guard asks it and when
`requests.get` does, and the answer of the server, or none for a `RequestException`. -/
structure Turn where
  checkLookup : List Char → Lookup
  requestLookup : List Char → Lookup
  reply : Option MirrorResponse

/-- The columns that storing the stream fills. -/
structure StoredStream where
  url : String
  mimeType : String
  size : String
  duration : ℕ
  fileSize : ℕ
deriving DecidableEq, Repr

/-- The attachment, and the addresses that connections were opened to. -/
structure MirrorState where
  attachment : TabyinAttachment
  connections : List (List Char)
deriving DecidableEq, Repr

/-- `_MIRROR_MAX_REDIRECTS`. -/
def mirrorMaxRedirects : ℕ := 3

/-- `_ALLOWED_WEB_PORTS`. -/
def allowedWebPorts : List (Option ℕ) := [some 80, some 443, none]

def redirectStatuses : List ℕ := [301, 302, 303, 307, 308]

/-- An address as the resolver writes it is global. -/
def isGlobalAddress (address : List Char) : Bool := (ipAddress address).any IpAddress.isGlobal

/-! ## The guard -/

/-- `_assert_public_ip_literal`. -/
def assertPublicIpLiteral (hostname : List Char) : Except MirrorFailure Bool :=
  let isBracket := fun c => c == '[' || c == ']'
  let cleaned := ((hostname.dropWhile isBracket).reverse.dropWhile isBracket).reverse
  match ipAddress cleaned with
  | none => .ok false
  | some ip =>
      if ip.isGlobal = true then .ok true
      else .error (.mirrorError "نشانی به یک نشستِ غیرعمومی (شبکه‌ی داخلی) اشاره دارد.")

/-- The loop over the addresses of a name. -/
def assertPublicAddresses : List (List Char) → Except MirrorFailure Unit
  | [] => .ok ()
  | raw :: addresses =>
      match ipAddress raw with
      | none => .error (.mirrorError "نشستِ نامعتبر برای دامنه.")
      | some ip =>
          if ip.isGlobal = true then assertPublicAddresses addresses
          else .error (.mirrorError "دامنه به یک نشستِ غیرعمومی (شبکه‌ی داخلی) اشاره می‌کند.")

section

variable (nfkc : List Char → List Char)

/-- `_assert_public_web_url`. -/
def assertPublicWebUrl (lookup : List Char → Lookup) (url : List Char) :
    Except MirrorFailure Unit := do
  match urlparse nfkc url [] with
  | none => .error .valueError
  | some parsed =>
      checkThat (parsed.scheme = "http".toList ∨ parsed.scheme = "https".toList)
        (.mirrorError "فقط نشانی‌های http/https قابل آینه‌سازی هستند.")
      match parsed.hostname with
      | none => .error (.mirrorError "نشانی معتبر نیست.")
      | some hostname =>
          checkThat (parsed.userinfo.1 = [] ∧ parsed.userinfo.2 = [])
            (.mirrorError "نشانی‌های دارای کاربر/گذرواژه (userinfo) پذیرفته نیستند.")
          match parsed.port with
          | none => .error (.mirrorError "پورت نشانی معتبر نیست.")
          | some port =>
              checkThat (allowedWebPorts.contains port = true)
                (.mirrorError "فقط پورت‌های ۸۰ و ۴۴۳ برای آینه‌سازی مجازند.")
              let hostname := (pyLower (pyStrip (String.ofList hostname))).toList
              let hostname := (hostname.reverse.dropWhile (· == '.')).reverse
              let literal ← assertPublicIpLiteral hostname
              if literal = true then return ()
              match lookup hostname with
              | .error .gaierror => .error (.mirrorError "دامنه‌ی نشانی قابل تبدیل به نشست نیست.")
              | .error .other => .error .lookupError
              | .ok addresses =>
                  checkThat (addresses ≠ []) (.mirrorError "برای این دامنه هیچ نشستی پیدا نشد.")
                  assertPublicAddresses addresses

/-! ## The stream -/

/-- What `requests.get` finds for the host of a URL. -/
def requestAddresses (turn : Turn) (url : List Char) : Option (List (List Char)) :=
  match (urlparse nfkc url []).bind ParsedUrl.hostname with
  | none => none
  | some hostname =>
      match turn.requestLookup hostname with
      | .ok addresses => some addresses
      | .error _ => none

/-- `requests.get` without redirects: it connects to one of the addresses. -/
def requestsGet (turn : Turn) (pick : ℕ) (url : List Char) :
    Txn MirrorState MirrorFailure MirrorResponse := do
  let failed := .mirrorError "دانلود از نشانی داده‌شده ممکن نشد."
  let address ← orRaise ((requestAddresses nfkc turn url).bind fun addresses => addresses[pick]?) failed
  modify fun s => { s with connections := s.connections ++ [address] }
  orRaise turn.reply failed

/-- `_open_mirror_stream`, with the number of turns that are left. -/
def openMirrorStream : ℕ → (ℕ → Turn) → (ℕ → ℕ) → List Char →
    Txn MirrorState MirrorFailure MirrorResponse
  | 0, _, _, _ => throw (.mirrorError "زنجیره‌ی تغییرمسیر بیش از حد مجاز است.")
  | turns + 1, world, picks, current => do
      fromExcept (assertPublicWebUrl nfkc (world 0).checkLookup current)
      let response ← requestsGet nfkc (world 0) (picks 0) current
      if redirectStatuses.contains response.status = true then
        let location := (pyStrip (response.location.getD "")).toList
        require (location ≠ []) (.mirrorError "تغییرمسیرِ بی‌مقصد از سوی سرور مبدأ.")
        let next ← orRaise (urljoin nfkc current location) .valueError
        openMirrorStream turns (fun n => world (n + 1)) (fun n => picks (n + 1)) next
      else do
        require (response.status = 200)
          (.mirrorError ("سرور مبدأ وضعیت " ++ toString response.status ++ " برگرداند."))
        return response

/-- The URL that an attachment is mirrored from. -/
def remoteUrl (attachment : TabyinAttachment) : String :=
  pyStrip (if attachment.originUrl ≠ "" then attachment.originUrl else attachment.url)

/-- `mirror_attachment_to_local`.  `isLocalMediaUrl` knows our own hosts, and `stored` is what
becomes of the stream: its checks fail, or its content is stored. -/
def mirrorAttachmentToLocal (isLocalMediaUrl : String → Bool)
    (stored : MirrorResponse → Option StoredStream) (world : ℕ → Turn) (picks : ℕ → ℕ) :
    Txn MirrorState MirrorFailure Bool := fun s =>
  let remote := remoteUrl s.attachment
  if remote = "" ∨ isLocalMediaUrl remote = true then (.ok true, s)
  else
    let failed := fun t : MirrorState =>
      (.ok false, { t with attachment := { t.attachment with mirrorStatus := .failed } })
    match exec (openMirrorStream nfkc (mirrorMaxRedirects + 1) world picks remote.toList) s with
    | (.error (.mirrorError _), t) => failed t
    | (.error e, t) => (.error e, t)
    | (.ok response, t) =>
        match stored response with
        | none => failed t
        | some stream =>
            (.ok true,
              { t with
                attachment :=
                  { t.attachment with
                    originUrl := remote
                    url := stream.url
                    relativeUrl := stream.url
                    mirrorStatus := .mirrored
                    mimeType := stream.mimeType
                    size := stream.size
                    duration := stream.duration
                    fileSize := stream.fileSize } })

/-! ## The connections -/

/-- Where the server of a turn sends the request. -/
def redirectedTo (turn : Turn) (url : List Char) : Option (List Char) :=
  match turn.reply with
  | none => none
  | some response =>
      let location := (pyStrip (response.location.getD "")).toList
      if redirectStatuses.contains response.status = true ∧ location ≠ [] then
        urljoin nfkc url location
      else none

/-- The addresses connected to, turn by turn. -/
def connectedTo : ℕ → (ℕ → Turn) → (ℕ → ℕ) → List Char → List (List Char)
  | 0, _, _, _ => []
  | turns + 1, world, picks, url =>
      match assertPublicWebUrl nfkc (world 0).checkLookup url with
      | .error _ => []
      | .ok _ =>
          match (requestAddresses nfkc (world 0) url).bind fun addresses => addresses[picks 0]? with
          | none => []
          | some address =>
              address ::
                match redirectedTo nfkc (world 0) url with
                | none => []
                | some next =>
                    connectedTo turns (fun n => world (n + 1)) (fun n => picks (n + 1)) next

/-- Whenever the guard accepts the URL of a turn, the lookup that the request makes answers
global addresses only. -/
def ResolvesGlobally : ℕ → (ℕ → Turn) → List Char → Prop
  | 0, _, _ => True
  | turns + 1, world, url =>
      assertPublicWebUrl nfkc (world 0).checkLookup url = .ok () →
        ∀ addresses, requestAddresses nfkc (world 0) url = some addresses → addresses ≠ [] →
          (∀ address ∈ addresses, isGlobalAddress address = true) ∧
            ∀ next, redirectedTo nfkc (world 0) url = some next →
              ResolvesGlobally turns (fun n => world (n + 1)) next

variable {nfkc}

/-- Whatever `requests.get` picks, the chain stays on global addresses exactly where its
lookups do. -/
theorem connectedTo_global_iff (turns : ℕ) (world : ℕ → Turn) (url : List Char) :
    (∀ picks, ∀ address ∈ connectedTo nfkc turns world picks url, isGlobalAddress address = true) ↔
      ResolvesGlobally nfkc turns world url := by
  induction turns generalizing world url with
  | zero => simp [connectedTo, ResolvesGlobally]
  | succ turns ih =>
      constructor
      · intro h hcheck addresses haddresses hne
        have hpicked : ∀ (i : ℕ) (address : List Char), addresses[i]? = some address → ∀ picks,
            connectedTo nfkc (turns + 1) world (fun n => Nat.casesOn n i picks) url =
              address ::
                match redirectedTo nfkc (world 0) url with
                | none => []
                | some next => connectedTo nfkc turns (fun n => world (n + 1)) picks next := by
          intro i address hi picks
          simp [connectedTo, hcheck, haddresses, hi]
        constructor
        · intro address hmem
          obtain ⟨i, hi⟩ := List.getElem?_of_mem hmem
          have hall := h (fun n => Nat.casesOn n i fun _ => 0)
          rw [hpicked i address hi] at hall
          exact hall address List.mem_cons_self
        · intro next hnext
          refine (ih _ _).mp fun picks address haddress => ?_
          obtain ⟨first, hfirst⟩ := List.exists_mem_of_ne_nil addresses hne
          obtain ⟨i, hi⟩ := List.getElem?_of_mem hfirst
          have hall := h (fun n => Nat.casesOn n i picks)
          rw [hpicked i first hi, hnext] at hall
          exact hall address (List.mem_cons_of_mem first haddress)
      · intro h picks address haddress
        rw [connectedTo] at haddress
        split at haddress
        · cases haddress
        · next hcheck =>
            split at haddress
            · cases haddress
            · next first hfirst =>
                obtain ⟨addresses, haddresses, hi⟩ := Option.bind_eq_some_iff.mp hfirst
                have hmem := List.mem_of_getElem? hi
                obtain ⟨hglobal, hnext⟩ := h hcheck addresses haddresses (List.ne_nil_of_mem hmem)
                rcases List.mem_cons.mp haddress with rfl | hlater
                · exact hglobal _ hmem
                · split at hlater
                  · cases hlater
                  · next next hredirect =>
                      exact (ih _ _).mpr (hnext next hredirect) _ address hlater

/-- Opening the stream connects to those addresses and leaves the attachment alone. -/
theorem after_openMirrorStream (turns : ℕ) (world : ℕ → Turn) (picks : ℕ → ℕ) (url : List Char)
    (s : MirrorState) :
    after (openMirrorStream nfkc turns world picks url) s =
      { s with connections := s.connections ++ connectedTo nfkc turns world picks url } := by
  induction turns generalizing world picks url s with
  | zero => simp [openMirrorStream, connectedTo, after]
  | succ turns ih =>
      unfold after at ih ⊢
      rw [openMirrorStream, connectedTo, requestsGet]
      cases hcheck : assertPublicWebUrl nfkc (world 0).checkLookup url with
      | error e => simp [fromExcept]
      | ok _ =>
          cases haddress : (requestAddresses nfkc (world 0) url).bind
              fun addresses => addresses[picks 0]? with
          | none => simp [fromExcept, orRaise]
          | some address =>
              cases hreply : (world 0).reply with
              | none => simp [exec_bind, fromExcept, orRaise, redirectedTo, hreply]
              | some response =>
                  simp only [exec_bind, fromExcept, orRaise, exec_pure, exec_modify, redirectedTo,
                    hreply]
                  by_cases hredirect : redirectStatuses.contains response.status = true
                  · rw [if_pos hredirect]
                    by_cases hlocation : (pyStrip (response.location.getD "")).toList = []
                    · rw [if_neg fun h => h.2 hlocation]
                      simp [require, hlocation]
                    · rw [if_pos ⟨hredirect, hlocation⟩, require, if_pos hlocation]
                      cases hnext : urljoin nfkc url (pyStrip (response.location.getD "")).toList with
                      | none => simp
                      | some next => simp [ih]
                  · rw [if_neg hredirect, if_neg fun h => hredirect h.1]
                    by_cases hstatus : response.status = 200 <;> simp [require, hstatus]

/-- The connections of a whole call. -/
theorem connections_mirrorAttachmentToLocal (isLocalMediaUrl : String → Bool)
    (stored : MirrorResponse → Option StoredStream) (world : ℕ → Turn) (picks : ℕ → ℕ)
    (s : MirrorState) :
    (after (mirrorAttachmentToLocal nfkc isLocalMediaUrl stored world picks) s).connections =
      if remoteUrl s.attachment = "" ∨ isLocalMediaUrl (remoteUrl s.attachment) = true then
        s.connections
      else
        s.connections ++
          connectedTo nfkc (mirrorMaxRedirects + 1) world picks (remoteUrl s.attachment).toList := by
  have hopen := @after_openMirrorStream nfkc (mirrorMaxRedirects + 1) world picks
    (remoteUrl s.attachment).toList s
  rw [after, exec_apply, mirrorAttachmentToLocal]
  by_cases hskip : remoteUrl s.attachment = "" ∨ isLocalMediaUrl (remoteUrl s.attachment) = true
  · rw [if_pos hskip, if_pos hskip]
  · rw [if_neg hskip, if_neg hskip]
    rw [after] at hopen
    rcases hexec : exec (openMirrorStream nfkc (mirrorMaxRedirects + 1) world picks
      (remoteUrl s.attachment).toList) s with ⟨result, t⟩
    rw [hexec] at hopen
    obtain rfl : t = _ := hopen
    cases result with
    | error e => cases e <;> rfl
    | ok response => cases hstored : stored response <;> simp [hstored]

end

/-! ## The guard over all answers -/

/-- A mirror call, whatever addresses `requests.get` picks, connects to global ones only. -/
def ConnectsGlobally (nfkc : List Char → List Char) (isLocalMediaUrl : String → Bool)
    (stored : MirrorResponse → Option StoredStream) (world : ℕ → Turn)
    (attachment : TabyinAttachment) : Prop :=
  ∀ picks, ∀ address ∈ (after (mirrorAttachmentToLocal nfkc isLocalMediaUrl stored world picks)
    ⟨attachment, []⟩).connections, isGlobalAddress address = true

/-- An attachment on a host that answers a public address when the guard asks, and the loopback
address right after. -/
def rebindingAttachment : TabyinAttachment :=
  { pk := 1, content := 1, url := "http://a.ir/x.png", relativeUrl := "http://a.ir/x.png",
    mediaType := .image, size := "", duration := 0, fileSize := 0, title := "", order := 0,
    originUrl := "http://a.ir/x.png", mirrorStatus := .pending, mimeType := "" }

def rebindingTurn : Turn where
  checkLookup := fun _ => .ok ["93.184.216.34".toList]
  requestLookup := fun _ => .ok ["127.0.0.1".toList]
  reply := some ⟨200, none⟩

end SetadJang.Tabyin
