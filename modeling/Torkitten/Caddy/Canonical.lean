import Torkitten.Caddy.Routing
import Torkitten.Control.Mappings
import Torkitten.Foundations.Reading
import Torkitten.Model.Specification

/-!
# The text of a configuration

`Renderer.Render` prints the configuration of a state by filling prefixes, host names, protocols and
ports into fixed text, without quoting. The grammar of `Validate` keeps these texts apart from what is
printed around them, so that the routing table can be read off the configuration again.

## Main results

* `render_eq_iff`: two states have the same configuration exactly when they have the same address and
  the same enabled mappings.
-/

namespace Torkitten.Caddy

open SortedMap

/-! ## The block of a mapping -/

namespace Renderer

variable (r : Renderer) (ids : List String)

/-- What is printed between the prefix of a mapping and its protocol. -/
def afterLabel (label : String) : String :=
  "host " ++ String.intercalate " " (hosts ids label) ++ "\n" ++ "\thandle @" ++ ("map_" ++ label) ++
    " \x7b\n" ++ r.protectedPrefix.text ++ "\t\treverse_proxy "

/-- The order of the parts of a block, whatever the fixed texts are. -/
theorem block_parts {tag name label space host names line handle brace guard proxy protocol colon slashes
    target port close : String} :
    ((tag ++ (name ++ label) ++ (space ++ host) ++ names ++ line) ++ handle ++ (name ++ label) ++ brace ++
        (guard ++ (proxy ++ (protocol ++ (colon ++ slashes) ++ target ++ colon ++ port) ++ line)) ++
        close).toList =
      (tag ++ name).toList ++ ((label.toList ++ space.toList) ++
        ((host ++ names ++ line ++ handle ++ (name ++ label) ++ brace ++ guard ++ proxy).toList ++
          ((protocol.toList ++ colon.toList) ++ ((slashes ++ target ++ colon).toList ++
            ((port.toList ++ line.toList) ++ close.toList))))) := by
  simp only [String.toList_append, List.append_assoc]

theorem application_text (m : Mapping) : (r.application ids m).text.toList =
    ("\t@" ++ "map_").toList ++ ((m.prefixLabel.toList ++ " ".toList) ++
      ((r.afterLabel ids m.prefixLabel).toList ++ ((m.protocol.text.toList ++ ":".toList) ++
        (("//" ++ r.targetHost ++ ":").toList ++ (((toString m.port).toList ++ "\n".toList) ++
          "\t\x7d\n".toList))))) := by
  have hhost : " host " = " " ++ "host " := rfl
  have hcolon : "://" = ":" ++ "//" := rfl
  have hdirectives : String.join ((r.application ids m).directives.map Directive.text) =
      r.protectedPrefix.text ++ ("\t\treverse_proxy " ++
        (m.protocol.text ++ (":" ++ "//") ++ r.targetHost ++ ":" ++ toString m.port) ++ "\n") := by
    rw [application, List.map_cons, List.map_cons, List.map_nil, String.join_cons, String.join_cons,
      String.join_nil, String.append_empty, ← hcolon]
    rfl
  rw [Handle.text, hdirectives, application, Matcher.text, hhost]
  exact block_parts

end Renderer

/-! ## The parts of a configuration -/

/-- What is printed for one address at the start of the first site. -/
def hostBlock (id : String) : List Char :=
  ("https" ++ "://").toList ++ ((id.toList ++ ".".toList) ++
    ("onion" ++ ", " ++ ("https" ++ "://" ++ ("*." ++ (id ++ ("." ++ "onion")))) ++ ", ").toList)

/-- A separated list that ends with a fixed element is printed block by block. -/
theorem toList_intercalate_flatMap (sep last : String) (f g : String → String) (ids : List String) :
    (String.intercalate sep ((ids.flatMap fun id => [f id, g id]) ++ [last])).toList =
      ids.flatMap (fun id => (f id ++ sep ++ g id ++ sep).toList) ++ last.toList := by
  induction ids with
  | nil => simp
  | cons id ids ih =>
    obtain ⟨first, rest, hlist⟩ := List.exists_cons_of_ne_nil
      (l := (ids.flatMap fun id => [f id, g id]) ++ [last]) (by simp)
    rw [hlist] at ih
    rw [List.flatMap_cons, List.append_assoc, hlist, List.cons_append, List.cons_append,
      List.nil_append, String.intercalate_cons_cons, String.intercalate_cons_cons]
    simp only [String.toList_append, ih, List.flatMap_cons, List.append_assoc]

theorem hostBlock_eq (id : String) : hostBlock id = ("https" ++ "://" ++ hostOf id "" ++ ", " ++
    ("https" ++ "://" ++ ("*." ++ hostOf id "")) ++ ", ").toList := by
  have hbase : hostOf id "" = id ++ ("." ++ "onion") := (if_pos rfl).trans (by rfl)
  -- the fixed texts are left alone: only the order of the parts matters
  have hparts : ∀ scheme colon dot onion comma star : String,
      (scheme ++ colon).toList ++ ((id.toList ++ dot.toList) ++
        (onion ++ comma ++ (scheme ++ colon ++ (star ++ (id ++ (dot ++ onion)))) ++ comma).toList) =
      (scheme ++ colon ++ (id ++ (dot ++ onion)) ++ comma ++
        (scheme ++ colon ++ (star ++ (id ++ (dot ++ onion)))) ++ comma).toList := by
    intro scheme colon dot onion comma star
    simp only [String.toList_append, List.append_assoc]
  rw [hbase]
  exact hparts _ _ _ _ _ _

theorem hostLine_text (ids : List String) :
    (String.intercalate ", " (((ids.flatMap fun id => [hostOf id "", "*." ++ hostOf id ""]) ++
      [":443"]).map ("https" ++ "://" ++ ·))).toList = ids.flatMap hostBlock ++ "https://:443".toList := by
  rw [show hostBlock = _ from funext hostBlock_eq, show "https://:443" = "https" ++ "://" ++ ":443" from rfl,
    ← toList_intercalate_flatMap]
  simp only [List.map_append, List.map_flatMap, List.map_cons, List.map_nil]

namespace Renderer

variable (r : Renderer) (ids : List String)

/-- The global options. -/
def opening : String :=
  "\x7b\n\tadmin unix/" ++ r.adminSocket ++ "\n\tpersist_config off\n\tstorage file_system \x7b\n\t\troot " ++
    r.storageRoot ++ "\n\t\x7d\n\tpki \x7b\n\t\tca local \x7b\n\t\t\tname \"Torkitten Local CA\"\n" ++
    "\t\t\tintermediate_lifetime 17520h\n\t\t\x7d\n\t\x7d\n\tcert_issuer internal \x7b\n\t\tlifetime 9528h\n" ++
    "\t\x7d\n\tskip_install_trust\n\tauto_https disable_redirects\n\x7d\n\n"

/-- The answer with the list of applications, up to the list. -/
def appsStart : String :=
  "\t\t@" ++ "apps" ++ " path " ++ "/apps.json" ++ "\n" ++
    String.join (["Content-Type application/json"].map fun h => "\t\theader @" ++ "apps" ++ " " ++ h ++ "\n") ++
    "\t\trespond @" ++ "apps" ++ " `"

/-- What is printed between the addresses and the list of applications. -/
def beforeApps : String :=
  "https://:443" ++ (" \x7b\n\tbind unix/" ++ (r.onionTLSSocket ++ ("\n" ++
    ("\ttls \x7b\n\t\tprotocols tls1.2 tls1.3\n\t\x7d\n" ++ ((r.portal ids).text ++
      (Matcher.text "launcher" { hosts := hosts ids "", paths := none, methods := none } ++
        ("\thandle @" ++ ("launcher" ++ (" \x7b\n" ++ (r.protectedPrefix.text ++ appsStart))))))))))

/-- The blocks of the launcher that follow the list of applications. -/
def launcherRest : List Directive :=
  (if r.publicRoot = "" then [] else
    [.respond "root_ca" "/trust/torkitten-root-ca.pem"
      ["Content-Type application/x-pem-file",
        "Content-Disposition `attachment; filename=torkitten-root-ca.pem`"] r.publicRoot]) ++
    [.files r.launcherRoot]

/-- What is printed between the list of applications and the first mapping. -/
def afterApps : String :=
  " 200\n" ++ (String.join (r.launcherRest.map Directive.text) ++ "\t\x7d\n")

/-- What is printed after the last mapping. -/
def closing : String :=
  "\trespond \"not found\" 404\n\x7d\n" ++ ("\n" ++ (denyAll .http r.onionHTTPSocket).text)

/-- The addresses in the order in which they are printed. -/
def sortedIDs (s : State) : List String := sortStrings (s.serviceID :: r.aliases)

/-- The enabled mappings in the order in which they are printed. -/
def shown (s : State) : List Mapping := (sortMappings s.mappings).filter Mapping.enabled

theorem respond_apps_text (body : String) :
    Directive.text (.respond "apps" "/apps.json" ["Content-Type application/json"] body) =
      appsStart ++ (body ++ ("`" ++ " 200\n")) := by
  have hquote : "` 200\n" = "`" ++ " 200\n" := rfl
  change appsStart ++ body ++ "` 200\n" = _
  rw [hquote, String.append_assoc]

theorem launcher_text (s : State) (mappings : List Mapping) : (r.launcher s ids mappings).text =
    Matcher.text "launcher" { hosts := hosts ids "", paths := none, methods := none } ++
      ("\thandle @" ++ ("launcher" ++ (" \x7b\n" ++ (r.protectedPrefix.text ++ (appsStart ++
        (launcherJSON s mappings ++ ("`" ++ r.afterApps))))))) := by
  have hdirectives : (r.launcher s ids mappings).directives = r.protectedPrefix ::
      .respond "apps" "/apps.json" ["Content-Type application/json"] (launcherJSON s mappings) ::
        r.launcherRest :=
    List.append_assoc _ _ _
  rw [Handle.text, hdirectives, List.map_cons, List.map_cons, String.join_cons, String.join_cons,
    respond_apps_text, afterApps]
  simp only [String.append_assoc]
  rfl

/-- The order of the parts of a configuration, whatever the fixed texts are. -/
theorem site_parts {head first bind socket line tls portal matcher handle name brace guard apps json
    quote after blocks final rest : String} {front : List Char}
    (hhead : head.toList = front ++ first.toList) :
    (head ++ bind ++ socket ++ line ++ tls ++ (portal ++ ((matcher ++ (handle ++ (name ++ (brace ++
        (guard ++ (apps ++ (json ++ (quote ++ after)))))))) ++ blocks)) ++ final).toList ++ rest.toList =
      front ++ ((first ++ (bind ++ (socket ++ (line ++ (tls ++ (portal ++ (matcher ++ (handle ++ (name ++
        (brace ++ (guard ++ apps))))))))))).toList ++ ((json.toList ++ quote.toList) ++
          (after.toList ++ (blocks.toList ++ (final ++ rest).toList)))) := by
  simp only [String.toList_append, List.append_assoc, hhead]

/-- The site that serves the addresses. -/
def site (s : State) : Site where
  listener := .tls
  hosts := (r.sortedIDs s).flatMap fun id => [hostOf id "", "*." ++ hostOf id ""]
  bind := r.onionTLSSocket
  versions := true
  handles := r.portal (r.sortedIDs s) :: r.launcher s (r.sortedIDs s) (sortMappings s.mappings) ::
    (shown s).map (r.application (r.sortedIDs s))

theorem site_text (s : State) :
    (r.site s).text.toList ++ ("\n" ++ (denyAll .http r.onionHTTPSocket).text).toList =
      (r.sortedIDs s).flatMap hostBlock ++ ((r.beforeApps (r.sortedIDs s)).toList ++
        (((launcherJSON s (sortMappings s.mappings)).toList ++ "`".toList) ++ (r.afterApps.toList ++
          ((shown s).flatMap (fun m => (r.application (r.sortedIDs s) m).text.toList) ++
            r.closing.toList)))) := by
  have happs : (String.join (((shown s).map (r.application (r.sortedIDs s))).map Handle.text)).toList =
      (shown s).flatMap fun m => (r.application (r.sortedIDs s) m).text.toList := by
    rw [String.toList_join, List.flatMap_map, List.flatMap_map]
  have hhandles : String.join ((r.site s).handles.map Handle.text) =
      (r.portal (r.sortedIDs s)).text ++
        ((r.launcher s (r.sortedIDs s) (sortMappings s.mappings)).text ++
          String.join (((shown s).map (r.application (r.sortedIDs s))).map Handle.text)) := by
    rw [site, List.map_cons, List.map_cons, String.join_cons, String.join_cons]
  rw [← happs, Site.text, hhandles, launcher_text,
    if_pos (show (r.site s).versions = true from rfl)]
  exact site_parts (hostLine_text (r.sortedIDs s))

theorem routed_text (s : State) : (r.routed s).text.toList =
    r.opening.toList ++ ((r.sortedIDs s).flatMap hostBlock ++
      ((r.beforeApps (r.sortedIDs s)).toList ++
        (((launcherJSON s (sortMappings s.mappings)).toList ++ "`".toList) ++ (r.afterApps.toList ++
          ((shown s).flatMap (fun m => (r.application (r.sortedIDs s) m).text.toList) ++
            r.closing.toList))))) := by
  have htext : (r.routed s).text =
      r.opening ++ ((r.site s).text ++ ("\n" ++ (denyAll .http r.onionHTTPSocket).text)) := by
    change r.opening ++ String.intercalate "\n" [(r.site s).text, (denyAll .http r.onionHTTPSocket).text]
      = _
    rw [String.intercalate_cons_cons, String.intercalate_singleton, String.append_assoc]
  rw [htext, String.toList_append, String.toList_append, r.site_text s]

end Renderer

/-! ## Texts that keep apart -/

theorem notMem_of_isLabel {v : String} (h : IsLabel v) {c : Char} (hc : isLabelChar c = false) :
    c ∉ v.toList := by
  intro hmem
  rw [(isLabelChar_iff c).mpr (h.chars c hmem)] at hc
  cases hc

theorem notMem_of_base32 {n : ℕ} {v : String} (h : Spelled IsBase32 n v) {c : Char}
    (hc : isBase32Char c = false) : c ∉ v.toList := by
  intro hmem
  rw [(isBase32Char_iff c).mpr (h.chars c hmem)] at hc
  cases hc

/-- The protocols of mappings are told apart by their texts, which hold no colon. -/
theorem protocol_text {m m' : Mapping} (h : m.Proper) (h' : m'.Proper) :
    ':' ∉ m.protocol.text.toList ∧
      (m.protocol.text = m'.protocol.text → m.protocol = m'.protocol) := by
  rcases h.protocol with h | h | h <;> rcases h'.protocol with h' | h' | h' <;> rw [h, h'] <;> decide

/-- A port is printed with digits, and its text determines it. -/
theorem port_text {p p' : ℤ} (h : 1 ≤ p) (h' : 1 ≤ p') :
    '\n' ∉ (toString p).toList ∧ (toString p = toString p' → p = p') := by
  obtain ⟨n, rfl⟩ := Int.eq_ofNat_of_zero_le (by omega : 0 ≤ p)
  obtain ⟨n', rfl⟩ := Int.eq_ofNat_of_zero_le (by omega : 0 ≤ p')
  change '\n' ∉ n.repr.toList ∧ (n.repr = n'.repr → _)
  refine ⟨fun hmem => ?_, fun heq => congrArg Int.ofNat ?_⟩
  · rw [Nat.repr_eq_ofList_toDigits, String.toList_ofList] at hmem
    have hdigit := Nat.isDigit_of_mem_toDigits (by decide) (by decide) hmem
    revert hdigit
    decide
  · rw [Nat.repr_eq_ofList_toDigits, Nat.repr_eq_ofList_toDigits, String.ofList_inj] at heq
    rw [← Nat.ofDigitChars_ten_toDigits (n := n), heq, Nat.ofDigitChars_ten_toDigits]

/-- Prefix, protocol and port can be read off the block of a mapping. -/
theorem Renderer.reads_application (r : Renderer) (ids : List String) :
    Reads Mapping.Proper (fun m => (r.application ids m).text.toList)
      fun m => (m.prefixLabel, m.protocol, m.port) := by
  have hlabel : Reads Mapping.Proper (fun m => m.prefixLabel.toList ++ " ".toList) Mapping.prefixLabel :=
    (Reads.upTo ' ' rfl fun m hm => notMem_of_isLabel hm.label (by decide)).imp
      fun _ _ _ _ h => String.toList_inj.mp h
  have hprotocol : Reads Mapping.Proper (fun m => m.protocol.text.toList ++ ":".toList)
      Mapping.protocol :=
    (Reads.upTo ':' rfl fun m hm => (protocol_text hm hm).1).imp
      fun m m' hm hm' h => (protocol_text hm hm').2 (String.toList_inj.mp h)
  have hport : Reads Mapping.Proper (fun m => (toString m.port).toList ++ "\n".toList) Mapping.port :=
    (Reads.upTo '\n' rfl fun m hm => (port_text hm.port.1 hm.port.1).1).imp
      fun m m' hm hm' h => (port_text hm.port.1 hm'.port.1).2 (String.toList_inj.mp h)
  simp only [r.application_text]
  refine ((Reads.fixed (fun _ _ _ _ => rfl) ()).seq fun _ => (hlabel.mono fun _ h => h.1).seq fun label =>
    (Reads.fixed ?_ ()).seq fun _ => (hprotocol.mono fun _ h => h.1.1.1).seq fun _ =>
      (Reads.fixed (fun _ _ _ _ => rfl) ()).seq fun _ => (hport.mono fun _ h => h.1.1.1.1.1).seq
        fun _ => Reads.fixed (fun _ _ _ _ => rfl) ()).imp ?_
  · -- once the prefix is known, so is what follows it
    intro m m' hm hm'
    rw [hm.2, hm'.2]
  · intro m m' _ _ h
    simp only [Prod.mk.injEq] at h ⊢
    tauto

/-! ## Reading a configuration -/

/-- An address can be read off what is printed for it. -/
theorem reads_hostBlock : Reads (Spelled IsBase32 56) hostBlock id := by
  have hid : Reads (Spelled IsBase32 56) (fun id => id.toList ++ ".".toList) id :=
    (Reads.upTo '.' rfl fun id hid => notMem_of_base32 hid (by decide)).imp
      fun _ _ _ _ h => String.toList_inj.mp h
  refine ((Reads.fixed (fun _ _ _ _ => rfl) ()).seq fun _ => (hid.mono fun _ h => h.1).seq fun id =>
    Reads.fixed ?_ ()).imp fun _ _ _ _ h => ?_
  · intro a b ha hb
    rw [show a = id from ha.2, show b = id from hb.2]
  · simp only [Prod.mk.injEq] at h
    exact h.2.1

theorem notMem_intercalate {c : Char} {sep : String} {l : List String} (hsep : c ∉ sep.toList)
    (h : ∀ v ∈ l, c ∉ v.toList) : c ∉ (String.intercalate sep l).toList := by
  induction l with
  | nil => simp
  | cons v l ih =>
    rw [List.forall_mem_cons] at h
    cases l with
    | nil => simpa using h.1
    | cons v' l =>
      rw [String.intercalate_cons_cons, String.toList_append, String.toList_append, List.mem_append,
        List.mem_append]
      rintro ((hv | hs) | hrest)
      · exact h.1 hv
      · exact hsep hs
      · exact ih h.2 hrest

/-- The characters of the addresses of applications. -/
def isAddressChar (c : Char) : Bool := isLabelChar c || c == '.' || c == ':' || c == '/'

/-- These characters are not escaped. -/
theorem escapeChar_of_isAddressChar {c : Char} (h : isAddressChar c = true) :
    escapeChar c = String.ofList [c] := by
  have hne : ∀ d, isAddressChar d = false → ¬ c = d := by
    rintro d hd rfl
    rw [hd] at h
    cases h
  have hsmall : ¬ c.toNat < 32 := by
    intro hlt
    have hcontrol : ∀ n < 32, isAddressChar (Char.ofNat n) = false := by decide
    have hc := hcontrol c.toNat hlt
    rw [Char.ofNat_toNat, h] at hc
    cases hc
  simp only [escapeChar, beq_iff_eq, Bool.or_eq_true, decide_eq_true_eq, hsmall,
    hne '"' (by decide), hne '\\' (by decide), hne '\x08' (by decide), hne '\x0c' (by decide),
    hne '\n' (by decide), hne '\r' (by decide), hne '\t' (by decide), hne '<' (by decide),
    hne '>' (by decide), hne '&' (by decide), hne '\u2028' (by decide), hne '\u2029' (by decide),
    or_self, ↓reduceIte]

theorem quote_notMem_jsonString {v : String} (h : ∀ c ∈ v.toList, isAddressChar c = true) :
    '`' ∉ (jsonString v).toList := by
  simp only [jsonString, String.toList_append, String.toList_join, List.mem_append, List.mem_flatMap,
    List.mem_map]
  rintro ((hq | ⟨_, ⟨c, hc, rfl⟩, hq⟩) | hq)
  · simp at hq
  · rw [escapeChar_of_isAddressChar (h c hc), String.toList_ofList, List.mem_singleton] at hq
    have hc := h c hc
    rw [← hq] at hc
    revert hc
    decide
  · simp at hq

theorem isAddressChar_of_isLabel {v : String} (h : IsLabel v) : ∀ c ∈ v.toList, isAddressChar c = true :=
  fun c hc => by simp [isAddressChar, (isLabelChar_iff c).mpr (h.chars c hc)]

/-- The address of an application. -/
theorem isAddressChar_of_host {s : State} (hid : Spelled IsBase32 56 s.serviceID) {label : String}
    (hlabel : IsLabel label) :
    ∀ c ∈ ("https://" ++ s.host label ++ "/").toList, isAddressChar c = true := by
  have hne : label ≠ "" := by
    rintro rfl
    exact absurd hlabel.length.1 (by decide)
  have hbase : ∀ c ∈ s.serviceID.toList, isAddressChar c = true := by
    intro c hc
    have hlabelChar : isLabelChar c = true := by
      rcases hid.chars c hc with h | h
      · exact (isLabelChar_iff c).mpr (.inl (.inl h))
      · exact (isLabelChar_iff c).mpr (.inl (.inr ⟨Char.le_trans (by decide) h.1,
          Char.le_trans h.2 (by decide)⟩))
    simp [isAddressChar, hlabelChar]
  have hfixed : ["https://", ".", ".onion", "/"].all (fun v => v.toList.all isAddressChar) = true := by
    decide
  simp only [List.all_eq_true] at hfixed
  rw [State.host, hostOf, if_neg hne]
  simp only [String.toList_append, List.mem_append]
  rintro c ((hc | ((hc | hc) | hc) | hc) | hc)
  · exact hfixed _ (by simp) c hc
  · exact isAddressChar_of_isLabel hlabel c hc
  · exact hfixed _ (by simp) c hc
  · exact hbase c hc
  · exact hfixed _ (by simp) c hc
  · exact hfixed _ (by simp) c hc

/-- The character that ends the list of applications is not part of it. -/
theorem quote_notMem_launcherJSON {s : State} (hs : s.Specified) (hinit : s.initialized = true) :
    '`' ∉ (launcherJSON s (sortMappings s.mappings)).toList := by
  have hid : Spelled IsBase32 56 s.serviceID := hs.serviceID.resolve_left (hs.owned hinit)
  have hlabel : ∀ m ∈ (sortMappings s.mappings).filter Mapping.enabled, IsLabel m.prefixLabel :=
    fun m hm => (hs.mapping m (Renderer.mem_sortMappings.mp (List.mem_filter.mp hm).1)).label
  have happs : '`' ∉ (String.intercalate "," ((launcherApps s (sortMappings s.mappings)).map fun app =>
      "\x7b\"name\":" ++ jsonString app.1 ++ ",\"url\":" ++ jsonString app.2 ++ "\x7d")).toList := by
    refine notMem_intercalate (by decide) fun text htext => ?_
    obtain ⟨app, happ, rfl⟩ := List.mem_map.mp htext
    obtain ⟨m, hm, rfl⟩ := List.mem_map.mp happ
    simp only [String.toList_append, List.mem_append, not_or]
    exact ⟨⟨⟨⟨by decide, quote_notMem_jsonString (isAddressChar_of_isLabel (hlabel m hm))⟩, by decide⟩,
      quote_notMem_jsonString (isAddressChar_of_host hid (hlabel m hm))⟩, by decide⟩
  simp only [launcherJSON, appsJSON, String.toList_append, List.mem_append, not_or]
  exact ⟨⟨by decide, happs⟩, by decide⟩

/-- The states that a renderer prints as a routing table. -/
structure Printed (r : Renderer) (s : State) : Prop where
  specified : s.Specified
  initialized : s.initialized = true
  aliases : ∀ id ∈ r.aliases, Spelled IsBase32 56 id

theorem Printed.sortedIDs {r : Renderer} {s : State} (h : Printed r s) :
    (∀ id ∈ r.sortedIDs s, Spelled IsBase32 56 id) ∧
      (r.sortedIDs s).length = r.aliases.length + 1 := by
  have hperm : (r.sortedIDs s).Perm (s.serviceID :: r.aliases) := List.perm_insertionSort _ _
  refine ⟨fun id hid => ?_, by simpa using hperm.length_eq⟩
  rcases List.mem_cons.mp (hperm.mem_iff.mp hid) with rfl | hid
  · exact h.specified.serviceID.resolve_left (h.specified.owned h.initialized)
  · exact h.aliases id hid

theorem serviceID_of_sortedIDs {r : Renderer} {s s' : State} (h : r.sortedIDs s = r.sortedIDs s') :
    s.serviceID = s'.serviceID := by
  have hsort : ∀ s, (r.sortedIDs s).Perm ([s.serviceID] ++ r.aliases) :=
    fun s => List.perm_insertionSort _ _
  have hperm : ([s.serviceID] ++ r.aliases).Perm ([s'.serviceID] ++ r.aliases) :=
    (hsort s).symm.trans (h ▸ hsort s')
  simpa using (List.perm_append_right_iff r.aliases).mp hperm

/-- The addresses can be read off a configuration, with what follows the launcher. -/
theorem reads_front (r : Renderer) : Reads (Printed r)
    (fun s => r.opening.toList ++ ((r.sortedIDs s).flatMap hostBlock ++
      ((r.beforeApps (r.sortedIDs s)).toList ++
        (((launcherJSON s (sortMappings s.mappings)).toList ++ "`".toList) ++ r.afterApps.toList))))
    r.sortedIDs := by
  have hids : Reads (Printed r) (fun s => (r.sortedIDs s).flatMap hostBlock) r.sortedIDs :=
    (reads_hostBlock.flatMap (fun _ _ _ _ h => h) (r.aliases.length + 1)).comp r.sortedIDs
      fun s hs => hs.sortedIDs
  have hjson : Reads (Printed r)
      (fun s => (launcherJSON s (sortMappings s.mappings)).toList ++ "`".toList)
      fun s => (launcherJSON s (sortMappings s.mappings)).toList :=
    Reads.upTo '`' rfl fun s hs => quote_notMem_launcherJSON hs.specified hs.initialized
  refine ((Reads.fixed (fun _ _ _ _ => rfl) ()).seq fun _ => (hids.mono fun _ h => h.1).seq fun ids =>
    (Reads.fixed ?_ ()).seq fun _ => (hjson.mono fun _ h => h.1.1.1).seq fun _ =>
      Reads.fixed (fun _ _ _ _ => rfl) ()).imp fun _ _ _ _ h => ?_
  · intro s s' hs hs'
    rw [hs.2, hs'.2]
  · simp only [Prod.mk.injEq] at h
    exact h.2.1

/-! ## The result -/

/-- The mappings that are printed are strictly sorted by their prefixes. -/
theorem pairwise_shown {s : State} (h : s.Specified) :
    (Renderer.shown s).Pairwise fun m m' => (Mapping.entry m).1 < (Mapping.entry m').1 := by
  unfold Renderer.shown
  rw [sortMappings_eq]
  exact (pairwise_lt_sort h.prefixes).filter _

theorem mem_shown {s : State} {m : Mapping} :
    m ∈ Renderer.shown s ↔ m ∈ s.mappings ∧ m.enabled = true := by
  rw [Renderer.shown, List.mem_filter, Renderer.mem_sortMappings]

/-- What is printed depends on the address and on the enabled mappings only. -/
theorem routed_eq {r : Renderer} {s s' : State} (hid : s.serviceID = s'.serviceID)
    (hshown : Renderer.shown s = Renderer.shown s') : r.routed s = r.routed s' := by
  have hhost : s.host = s'.host := by
    funext label
    rw [State.host, State.host, hid]
  have happs : launcherJSON s (sortMappings s.mappings) = launcherJSON s' (sortMappings s'.mappings) := by
    unfold launcherJSON launcherApps
    change appsJSON ((Renderer.shown s).map _) = appsJSON ((Renderer.shown s').map _)
    rw [hshown, hhost]
  have hblocks : ∀ ids, ((sortMappings s.mappings).filter Mapping.enabled).map (r.application ids) =
      ((sortMappings s'.mappings).filter Mapping.enabled).map (r.application ids) :=
    fun ids => congrArg (List.map (r.application ids)) hshown
  simp only [Renderer.routed, Renderer.launcher, hid, happs, hblocks]

/-- Two states with the same configuration have the same address and the same enabled mappings. -/
theorem shown_of_text_eq {r : Renderer} {s s' : State} (hs : Printed r s) (hs' : Printed r s')
    (h : (r.routed s).text = (r.routed s').text) :
    s.serviceID = s'.serviceID ∧ Renderer.shown s = Renderer.shown s' := by
  have htext := congrArg String.toList h
  rw [r.routed_text, r.routed_text] at htext
  obtain ⟨hids, hrest⟩ := reads_front r s s' _ _ hs hs' (by simpa only [List.append_assoc] using htext)
  refine ⟨serviceID_of_sortedIDs hids, ?_⟩
  rw [hids] at hrest
  -- the closing text is the same for both, so the blocks of the mappings are
  have hblocks := List.append_cancel_right hrest
  have hproper : ∀ {s}, Printed r s → ∀ m ∈ Renderer.shown s, m.Proper ∧ m.enabled = true := by
    intro s hs m hm
    obtain ⟨hmem, henabled⟩ := mem_shown.mp hm
    exact ⟨hs.specified.mapping m hmem, henabled⟩
  refine Reads.flatMap_inj ((r.reads_application (r.sortedIDs s')).mono fun _ h => h.1) (fun m _ => ?_)
    (fun m m' hm hm' haspect => ?_) (hproper hs) (hproper hs') hblocks
  · intro hnil
    rw [r.application_text, List.append_eq_nil_iff] at hnil
    exact absurd hnil.1 (by decide)
  · simp only [Prod.mk.injEq] at haspect
    rw [Mapping.mk.injEq]
    exact ⟨haspect.1, haspect.2.2, haspect.2.1, hm.2.trans hm'.2.symm⟩

theorem printed_of_render {r : Renderer} {s : State} {text : String} (h : r.render s = .ok text)
    (hinit : s.initialized = true) : Printed r s ∧ text = (r.routed s).text := by
  have hvalid : s.validate = none := valid_of_render h
  have hspec : s.Specified := valid_iff_specified.mp hvalid
  have hnotDenied : ¬ (decide (s.serviceID = "") || !s.initialized) = true := by
    simp [hinit, hspec.owned hinit]
  unfold Renderer.render Renderer.config at h
  rw [hvalid] at h
  dsimp only at h
  rw [if_neg hnotDenied] at h
  split at h
  · cases h
  split at h
  · cases h
  split at h
  · cases h
  · rename_i haliases
    rw [List.any_eq_true] at haliases
    push Not at haliases
    refine ⟨⟨hspec, hinit, fun id hid => ?_⟩, (Except.ok.inj h).symm⟩
    have hok := haliases id hid
    rw [Ne, Bool.or_eq_true, not_or, Bool.not_eq_true', Bool.not_eq_false] at hok
    exact serviceIDRE_iff.mp hok.1

/-- The configuration is a canonical and injective image of the routing table. -/
theorem render_eq_iff {r : Renderer} {s s' : State} {text text' : String}
    (h : r.render s = .ok text) (h' : r.render s' = .ok text') (hinit : s.initialized = true)
    (hinit' : s'.initialized = true) :
    text = text' ↔ s.serviceID = s'.serviceID ∧
      ∀ m : Mapping, m.enabled = true → (m ∈ s.mappings ↔ m ∈ s'.mappings) := by
  obtain ⟨hs, rfl⟩ := printed_of_render h hinit
  obtain ⟨hs', rfl⟩ := printed_of_render h' hinit'
  constructor
  · intro htext
    obtain ⟨hid, hshown⟩ := shown_of_text_eq hs hs' htext
    refine ⟨hid, fun m hm => ?_⟩
    have hmem := mem_shown (s := s) (m := m)
    rw [hshown, mem_shown] at hmem
    simpa only [hm, and_true] using hmem.symm
  · rintro ⟨hid, hmappings⟩
    have hshown : Renderer.shown s = Renderer.shown s' := by
      refine eq_of_pairwise_lt (pairwise_shown hs.specified) (pairwise_shown hs'.specified) fun m => ?_
      rw [mem_shown, mem_shown]
      exact and_congr_left fun hm => hmappings m hm
    rw [routed_eq hid hshown]

/-- The sample with its mappings in the other order and one more that is switched off. -/
def shuffledState : State :=
  { sampleState with
    mappings := sampleState.mappings.reverse ++
      [{ prefixLabel := "spare", port := 9000, protocol := .http, enabled := false }] }

theorem shuffledState_render : ∃ text, sampleRenderer.render sampleState = .ok text ∧
    sampleRenderer.render shuffledState = .ok text := by
  have hok : ∀ {e : Except GoError String}, e.isOk = true → ∃ text, e = .ok text := by
    intro e he
    cases e with
    | ok text => exact ⟨text, rfl⟩
    | error err => cases he
  obtain ⟨text, h⟩ := hok (show (sampleRenderer.render sampleState).isOk = true by decide +kernel)
  obtain ⟨text', h'⟩ := hok (show (sampleRenderer.render shuffledState).isOk = true by decide +kernel)
  have hmappings : ∀ m : Mapping, m.enabled = true →
      (m ∈ sampleState.mappings ↔ m ∈ shuffledState.mappings) := by
    intro m hm
    rw [shuffledState, List.mem_append, List.mem_reverse, List.mem_singleton]
    refine ⟨.inl, fun h => h.resolve_right ?_⟩
    rintro rfl
    cases hm
  refine ⟨text, h, ?_⟩
  rw [(render_eq_iff h h' rfl rfl).mpr ⟨rfl, hmappings⟩, h']

end Torkitten.Caddy
