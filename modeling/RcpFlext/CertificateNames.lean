import Mathlib.Data.List.Perm.Basic
import Mathlib.Data.List.TakeWhile
import RcpFlext.Atoms

/- The host name check of the tunnel's TLS context, built with RCP_VERIFY_SSL: the list of
   alternative names first, then the common name. -/
namespace CertificateNames
open Atoms

/-- `GEN_DNS` entries with the bytes of their `ASN1_STRING`; other entries are not read. -/
inductive GeneralName where
  | dns (dNSName : List Char8)
  | other
  deriving DecidableEq

/-- How far `verify_common_name` gets in the subject. -/
inductive CommonName where
  | noLocation
  | noEntry
  | noData
  | data (common_name : List Char8)
  deriving DecidableEq

structure Certificate where
  san_names : Option (List GeneralName)
  common_name : CommonName
  deriving DecidableEq

def strlen (data : List Char8) : Nat := (data.takeWhile (· ≠ 0)).length

def tolower (c : Char8) : Char8 := if 65 ≤ c.toNat ∧ c.toNat ≤ 90 then c + 32 else c

def strcasecmp : List Char8 → List Char8 → Int
  | [], [] => 0
  | [], b :: _ => 0 - (tolower b).toNat
  | a :: _, [] => (tolower a).toNat
  | a :: s, b :: t =>
    if tolower a = tolower b then if a = 0 then 0 else strcasecmp s t
    else (tolower a).toNat - (tolower b).toNat

section
variable (m_hostname : CString)

def alternativeNames : List GeneralName → Bool → Bool
  | [], result => result
  | .other :: names, result => alternativeNames names result
  | .dns dns_name :: names, result =>
    if dns_name.length ≠ strlen dns_name then result
    else alternativeNames names (strcasecmp m_hostname.bytes dns_name = 0)

def verifySubjectAlternativeName (cert : Certificate) : Bool :=
  match cert.san_names with
  | none => false
  | some san_names => alternativeNames m_hostname san_names false

def verifyCommonName (cert : Certificate) : Bool :=
  match cert.common_name with
  | .data common_name_str =>
    if common_name_str.length ≠ strlen common_name_str then false
    else strcasecmp m_hostname.bytes common_name_str = 0
  | _ => false

/-- `depth` is where in the chain the certificate stands, 0 the server's own. -/
def verifyCertificate (preverified : Bool) (depth : Nat) (cert : Certificate) : Bool :=
  if depth = 0 ∧ preverified = true then
    if verifySubjectAlternativeName m_hostname cert then true
    else if verifyCommonName m_hostname cert then true
    else false
  else preverified

end

def NulFree (data : List Char8) : Prop := ∀ c ∈ data, c ≠ 0

def SameName (s t : List Char8) : Prop := s.map tolower = t.map tolower

instance (data : List Char8) : Decidable (NulFree data) :=
  inferInstanceAs (Decidable (∀ c ∈ data, c ≠ 0))

instance (s t : List Char8) : Decidable (SameName s t) :=
  inferInstanceAs (Decidable (s.map tolower = t.map tolower))

def Certificate.names (cert : Certificate) : List GeneralName := cert.san_names.getD []

section
variable (m_hostname : CString)

/-- A DNS name of the host, before the first one with an embedded NUL. -/
def NamedAsAlternative (cert : Certificate) : Prop :=
  ∃ before dns_name after, cert.names = before ++ .dns dns_name :: after ∧
    (∀ d, .dns d ∈ before → NulFree d) ∧ NulFree dns_name ∧
    SameName m_hostname.bytes dns_name

def NamedAsCommon (cert : Certificate) : Prop :=
  ∃ common_name, cert.common_name = .data common_name ∧ NulFree common_name ∧
    SameName m_hostname.bytes common_name

def Host (name : GeneralName) : Prop :=
  match name with
  | .dns d => SameName m_hostname.bytes d
  | .other => False

instance (name : GeneralName) : Decidable (Host m_hostname name) :=
  match name with
  | .dns d => inferInstanceAs (Decidable (SameName m_hostname.bytes d))
  | .other => isFalse id

/-- Among the names before the first with a NUL, others in another order, as long as the same
    of them are the host's. -/
def Rearranged (cert cert' : Certificate) : Prop :=
  cert'.common_name = cert.common_name ∧ ∃ before before' rest,
    cert.names = before ++ rest ∧ cert'.names = before' ++ rest ∧
    (∀ d, .dns d ∈ before ∨ .dns d ∈ before' → NulFree d) ∧
    (rest = [] ∨ ∃ d more, rest = .dns d :: more ∧ ¬ NulFree d) ∧
    (before'.filter (Host m_hostname)).Perm (before.filter (Host m_hostname))

end

def dnsBefore : List GeneralName → List (List Char8)
  | [] => []
  | .other :: names => dnsBefore names
  | .dns d :: names => if NulFree d then d :: dnsBefore names else []

def dnsName : GeneralName → Option (List Char8)
  | .dns d => some d
  | .other => none

def LastNamed (m_hostname : CString) (cert : Certificate) : Prop :=
  ∃ d, (dnsBefore cert.names).getLast? = some d ∧ SameName m_hostname.bytes d

theorem tolower_zero {c : Char8} : tolower c = 0 ↔ c = 0 := by
  constructor
  · intro zero
    unfold tolower at zero
    split at zero
    · bv_omega
    · exact zero
  · intro zero
    subst zero
    decide

theorem strlen_eq_iff (data : List Char8) : data.length = strlen data ↔ NulFree data := by
  unfold strlen NulFree
  constructor
  · intro full c mem
    have whole := (List.takeWhile_prefix (fun c : Char8 => decide (c ≠ 0))).eq_of_length full.symm
    simpa using List.takeWhile_eq_self_iff.mp whole c mem
  · intro free
    rw [List.takeWhile_eq_self_iff.mpr (by simpa using free)]

theorem strcasecmp_iff {s t : List Char8} (left : NulFree s) (right : NulFree t) :
    strcasecmp s t = 0 ↔ SameName s t := by
  induction s generalizing t with
  | nil =>
    cases t with
    | nil => exact iff_of_true rfl rfl
    | cons b t =>
      have some_char := mt tolower_zero.mp (right b (.head _))
      simp only [strcasecmp, SameName, List.map_cons, List.map_nil, reduceCtorEq, iff_false]
      bv_omega
  | cons a s ih =>
    have nonzero := left a (.head _)
    cases t with
    | nil =>
      have some_char := mt tolower_zero.mp nonzero
      simp only [strcasecmp, SameName, List.map_cons, List.map_nil, reduceCtorEq, iff_false]
      bv_omega
    | cons b t =>
      have rest := ih (fun c mem => left c (.tail _ mem)) (fun c mem => right c (.tail _ mem))
        (t := t)
      simp only [SameName] at rest ⊢
      rw [strcasecmp, List.map_cons, List.map_cons, List.cons.injEq, ← rest]
      by_cases same : tolower a = tolower b
      · rw [if_pos same, if_neg nonzero]
        exact (and_iff_right same).symm
      · simp only [same, ↓reduceIte, false_and, iff_false]
        bv_omega

/-- Each DNS name overwrites the result of those before it. -/
theorem alternativeNames_last (m_hostname : CString) (names : List GeneralName) (result : Bool) :
    alternativeNames m_hostname names result =
      ((dnsBefore names).getLast?.map fun d => decide (SameName m_hostname.bytes d)).getD result := by
  induction names generalizing result with
  | nil => rfl
  | cons name names ih =>
    cases name with
    | other => simp only [alternativeNames, dnsBefore, ih]
    | dns d =>
      by_cases free : NulFree d
      · have whole := (strlen_eq_iff d).mpr free
        have same := strcasecmp_iff m_hostname.terminated free
        simp only [alternativeNames, dnsBefore, free, whole, ne_eq, not_true_eq_false, ↓reduceIte, ih,
          List.getLast?_cons, same]
        cases (dnsBefore names).getLast? <;> rfl
      · have cut : d.length ≠ strlen d := mt (strlen_eq_iff d).mp free
        simp only [alternativeNames, dnsBefore, free, cut, ne_eq, not_false_eq_true, ↓reduceIte]
        rfl

theorem mem_dnsBefore {names : List GeneralName} {d : List Char8} :
    d ∈ dnsBefore names ↔ ∃ before after, names = before ++ .dns d :: after ∧
      (∀ e, .dns e ∈ before → NulFree e) ∧ NulFree d := by
  constructor
  · intro mem
    induction names with
    | nil => contradiction
    | cons name names ih =>
      cases name with
      | other =>
        obtain ⟨before, after, eq, free, own⟩ := ih mem
        refine ⟨.other :: before, after, by rw [eq, List.cons_append], ?_, own⟩
        intro e inside
        exact free e (by simpa using inside)
      | dns e =>
        rw [dnsBefore] at mem
        split at mem
        · rename_i first
          rcases List.mem_cons.mp mem with same | later
          · subst same
            exact ⟨[], names, rfl, by simp, first⟩
          · obtain ⟨before, after, eq, free, own⟩ := ih later
            refine ⟨.dns e :: before, after, by rw [eq, List.cons_append], ?_, own⟩
            intro f inside
            rcases List.mem_cons.mp inside with same | other
            · cases same
              exact first
            · exact free f other
        · contradiction
  · rintro ⟨before, after, eq, free, own⟩
    subst eq
    induction before with
    | nil => simp [dnsBefore, own]
    | cons name before ih =>
      have rest := ih fun e inside => free e (.tail _ inside)
      cases name with
      | other => exact rest
      | dns e =>
        rw [List.cons_append, dnsBefore, if_pos (free e (.head _))]
        exact .tail _ rest

theorem dnsBefore_append {before rest : List GeneralName} (free : ∀ d, .dns d ∈ before → NulFree d)
    (stop : rest = [] ∨ ∃ d more, rest = .dns d :: more ∧ ¬ NulFree d) :
    dnsBefore (before ++ rest) = before.filterMap dnsName := by
  induction before with
  | nil =>
    rcases stop with empty | ⟨d, more, eq, cut⟩
    · subst empty
      rfl
    · subst eq
      exact if_neg cut
  | cons name before ih =>
    have rest := ih fun d inside => free d (.tail _ inside)
    cases name with
    | other => exact rest
    | dns d =>
      rw [List.cons_append, dnsBefore, if_pos (free d (.head _)), rest]
      rfl

theorem stop_exists (names : List GeneralName) : ∃ before rest, names = before ++ rest ∧
    (∀ d, .dns d ∈ before → NulFree d) ∧
    (rest = [] ∨ ∃ d more, rest = .dns d :: more ∧ ¬ NulFree d) := by
  induction names with
  | nil => exact ⟨[], [], rfl, by simp, .inl rfl⟩
  | cons name names ih =>
    obtain ⟨before, rest, eq, free, stop⟩ := ih
    by_cases cut : ∃ d, name = .dns d ∧ ¬ NulFree d
    · obtain ⟨d, same, embedded⟩ := cut
      exact ⟨[], name :: names, rfl, by simp, .inr ⟨d, names, by rw [same], embedded⟩⟩
    · refine ⟨name :: before, rest, by rw [eq, List.cons_append], ?_, stop⟩
      intro d inside
      rcases List.mem_cons.mp inside with first | later
      · by_contra embedded
        exact cut ⟨d, first.symm, embedded⟩
      · exact free d later

section
variable {m_hostname : CString} {cert cert' : Certificate} {preverified : Bool}

theorem namedAsAlternative_iff : NamedAsAlternative m_hostname cert ↔
    ∃ d ∈ dnsBefore cert.names, SameName m_hostname.bytes d := by
  constructor
  · rintro ⟨before, d, after, eq, free, own, same⟩
    exact ⟨d, mem_dnsBefore.mpr ⟨before, after, eq, free, own⟩, same⟩
  · rintro ⟨d, inside, same⟩
    obtain ⟨before, after, eq, free, own⟩ := mem_dnsBefore.mp inside
    exact ⟨before, d, after, eq, free, own, same⟩

theorem lastNamed_named (last : LastNamed m_hostname cert) : NamedAsAlternative m_hostname cert := by
  obtain ⟨d, final, same⟩ := last
  exact namedAsAlternative_iff.mpr ⟨d, List.mem_of_getLast? final, same⟩

theorem verifySubjectAlternativeName_iff :
    verifySubjectAlternativeName m_hostname cert = true ↔ LastNamed m_hostname cert := by
  unfold verifySubjectAlternativeName LastNamed Certificate.names
  cases cert.san_names with
  | none => simp [dnsBefore]
  | some names =>
    simp only [alternativeNames_last, Option.getD_some]
    cases (dnsBefore names).getLast? <;> simp

theorem verifyCommonName_iff :
    verifyCommonName m_hostname cert = true ↔ NamedAsCommon m_hostname cert := by
  unfold verifyCommonName NamedAsCommon
  cases cert.common_name with
  | noLocation | noEntry | noData => simp
  | data name =>
    by_cases free : NulFree name
    · have whole := (strlen_eq_iff name).mpr free
      have same := strcasecmp_iff m_hostname.terminated free
      simp [whole, same, free]
    · have cut : name.length ≠ strlen name := mt (strlen_eq_iff name).mp free
      simp [cut, free]

theorem verifyCertificate_iff : verifyCertificate m_hostname preverified 0 cert = true ↔
    preverified = true ∧ (LastNamed m_hostname cert ∨ NamedAsCommon m_hostname cert) := by
  rw [← verifySubjectAlternativeName_iff, ← verifyCommonName_iff]
  unfold verifyCertificate
  cases preverified <;> cases verifySubjectAlternativeName m_hostname cert <;> simp

theorem hostName_iff (names : List GeneralName) :
    (∃ d ∈ names.filterMap dnsName, SameName m_hostname.bytes d) ↔
      ∃ name, name ∈ names.filter (Host m_hostname) := by
  constructor
  · rintro ⟨d, inside, own⟩
    obtain ⟨name, listed, is⟩ := List.mem_filterMap.mp inside
    cases name with
    | other => cases is
    | dns e =>
      have same : e = d := Option.some.inj is
      subst same
      exact ⟨.dns e, List.mem_filter.mpr ⟨listed, decide_eq_true own⟩⟩
  · rintro ⟨name, inside⟩
    obtain ⟨listed, own⟩ := List.mem_filter.mp inside
    cases name with
    | other => exact absurd (of_decide_eq_true own) id
    | dns e => exact ⟨e, List.mem_filterMap.mpr ⟨.dns e, listed, rfl⟩, of_decide_eq_true own⟩

theorem rearranged_named (rearranged : Rearranged m_hostname cert cert') :
    NamedAsAlternative m_hostname cert' ↔ NamedAsAlternative m_hostname cert := by
  obtain ⟨_, before, before', rest, eq, eq', free, stop, same⟩ := rearranged
  rw [namedAsAlternative_iff, namedAsAlternative_iff, eq, eq',
    dnsBefore_append (fun d inside => free d (.inl inside)) stop,
    dnsBefore_append (fun d inside => free d (.inr inside)) stop, hostName_iff, hostName_iff]
  constructor
  · rintro ⟨name, inside⟩
    exact ⟨name, same.mem_iff.mp inside⟩
  · rintro ⟨name, inside⟩
    exact ⟨name, same.mem_iff.mpr inside⟩

theorem rearranged_common (rearranged : Rearranged m_hostname cert cert') :
    NamedAsCommon m_hostname cert' ↔ NamedAsCommon m_hostname cert := by
  unfold NamedAsCommon
  rw [rearranged.1]

theorem other_name (m_hostname : CString) : ∃ d, NulFree d ∧ ¬ SameName m_hostname.bytes d := by
  refine ⟨120 :: m_hostname.bytes, ?_, ?_⟩
  · intro c inside
    rcases List.mem_cons.mp inside with first | later
    · subst first
      decide
    · exact m_hostname.terminated c later
  · intro same
    have lengths := congrArg List.length same
    simp at lengths

theorem only_host_last {before rest : List GeneralName}
    (free : ∀ d, .dns d ∈ before → NulFree d)
    (stop : rest = [] ∨ ∃ d more, rest = .dns d :: more ∧ ¬ NulFree d)
    (named : ∃ name, name ∈ before.filter (Host m_hostname))
    (eq : cert.names = before.filter (Host m_hostname) ++ rest) : LastNamed m_hostname cert := by
  have own_free : ∀ d, .dns d ∈ before.filter (Host m_hostname) → NulFree d :=
    fun d inside => free d (List.mem_of_mem_filter inside)
  rw [LastNamed, eq, dnsBefore_append own_free stop]
  cases final : ((before.filter (Host m_hostname)).filterMap dnsName).getLast? with
  | none =>
    obtain ⟨name, inside⟩ := named
    obtain ⟨listed, own⟩ := List.mem_filter.mp inside
    have empty := List.getLast?_eq_none_iff.mp final
    have unnamed := List.filterMap_eq_nil_iff.mp empty name inside
    cases name with
    | other => exact absurd (of_decide_eq_true own) id
    | dns d => cases unnamed
  | some d =>
    obtain ⟨name, inside, is⟩ := List.mem_filterMap.mp (List.mem_of_getLast? final)
    have own := of_decide_eq_true (List.mem_filter.mp inside).2
    cases name with
    | other => cases is
    | dns e =>
      have same : e = d := Option.some.inj is
      exact ⟨d, rfl, same ▸ own⟩

theorem rearranged_both (named : NamedAsAlternative m_hostname cert) :
    (∃ cert', Rearranged m_hostname cert cert' ∧ LastNamed m_hostname cert') ∧
      ∃ cert', Rearranged m_hostname cert cert' ∧ ¬ LastNamed m_hostname cert' := by
  obtain ⟨before, rest, eq, free, stop⟩ := stop_exists cert.names
  rw [namedAsAlternative_iff, eq, dnsBefore_append free stop, hostName_iff] at named
  constructor
  · refine ⟨{ cert with san_names := some (before.filter (Host m_hostname) ++ rest) },
      ⟨rfl, before, before.filter (Host m_hostname), rest, eq, rfl, ?_, stop, ?_⟩,
      only_host_last free stop named rfl⟩
    · intro d inside
      rcases inside with old | new
      · exact free d old
      · exact free d (List.mem_of_mem_filter new)
    · rw [List.filter_filter]
      simp
  · obtain ⟨x, whole, apart⟩ := other_name m_hostname
    have more_free : ∀ d, .dns d ∈ before ++ [.dns x] → NulFree d := by
      intro d inside
      rcases List.mem_append.mp inside with old | new
      · exact free d old
      · have same : d = x := by simpa using new
        exact same ▸ whole
    refine ⟨{ cert with san_names := some (before ++ [.dns x] ++ rest) },
      ⟨rfl, before, before ++ [.dns x], rest, eq, rfl, ?_, stop, ?_⟩, ?_⟩
    · intro d inside
      rcases inside with old | new
      · exact free d old
      · exact more_free d new
    · have refused : [GeneralName.dns x].filter (Host m_hostname) = [] :=
        List.filter_eq_nil_iff.mpr fun name only => by
          rw [List.mem_singleton.mp only]
          exact mt of_decide_eq_true apart
      rw [List.filter_append, refused, List.append_nil]
    · rintro ⟨d, final, same⟩
      have names : Certificate.names { cert with san_names := some (before ++ [.dns x] ++ rest) } =
          before ++ [.dns x] ++ rest := rfl
      rw [names, dnsBefore_append more_free stop, List.filterMap_append] at final
      have last : x = d := by simpa [dnsName] using final
      exact apart (last ▸ same)

end

/-- Where the check accepts what it should, and where the order of the names makes no
    difference to it. -/
theorem verified_iff (m_hostname : CString) (preverified : Bool) (cert : Certificate) :
    ((verifyCertificate m_hostname preverified 0 cert = true ↔
      preverified = true ∧ (NamedAsAlternative m_hostname cert ∨ NamedAsCommon m_hostname cert)) ↔
      preverified = false ∨ NamedAsCommon m_hostname cert ∨
        ¬ NamedAsAlternative m_hostname cert ∨ LastNamed m_hostname cert) ∧
    ((∀ cert', Rearranged m_hostname cert cert' →
        verifyCertificate m_hostname preverified 0 cert' =
          verifyCertificate m_hostname preverified 0 cert) ↔
      preverified = false ∨ NamedAsCommon m_hostname cert ∨
        ¬ NamedAsAlternative m_hostname cert) := by
  constructor
  · have narrower := @lastNamed_named m_hostname cert
    rw [verifyCertificate_iff]
    cases preverified
    · simp
    · simp only [true_and, Bool.true_eq_false, false_or]
      tauto
  · constructor
    · intro same
      by_contra exposed
      simp only [not_or, Bool.not_eq_false, not_not] at exposed
      obtain ⟨preverified, uncommon, named⟩ := exposed
      obtain ⟨⟨first, moved, last⟩, second, covered, hidden⟩ := rearranged_both named
      have accepted := verifyCertificate_iff.mpr ⟨preverified, .inl last⟩
      rw [same first moved, ← same second covered, verifyCertificate_iff] at accepted
      rcases accepted.2 with ends | common
      · exact hidden ends
      · exact uncommon ((rearranged_common covered).mp common)
    · intro safe cert' rearranged
      rw [Bool.eq_iff_iff, verifyCertificate_iff, verifyCertificate_iff,
        rearranged_common rearranged]
      rcases safe with refused | common | unnamed
      · simp [refused]
      · simp [common]
      · have hidden := mt lastNamed_named unnamed
        have hidden' := mt lastNamed_named (mt (rearranged_named rearranged).mp unnamed)
        simp [hidden, hidden']

def rabbitholeHostname : CString := .ofBytes (text ['r', 'a', 'b', 'b', 'i', 't', 'h', 'o', 'l', 'e',
  '.', 'r', 'a', 'b', 'b', 'i', 't', 'c', 'o', 'n', 't', 'r', 'o', 'l', '.', 'c', 'c'])

def hostFirst : Certificate :=
  ⟨some [.dns rabbitholeHostname.bytes, .dns (text ['r', 'c', 'p'])], .noLocation⟩

def hostSecond : Certificate :=
  ⟨some [.dns (text ['r', 'c', 'p']), .dns rabbitholeHostname.bytes], .noLocation⟩

/-- The host's own certificate is refused, and accepted with its two names the other way. -/
theorem last_name_decides :
    NamedAsAlternative rabbitholeHostname hostFirst ∧
    verifyCertificate rabbitholeHostname true 0 hostFirst = false ∧
    Rearranged rabbitholeHostname hostFirst hostSecond ∧
    verifyCertificate rabbitholeHostname true 0 hostSecond = true := by
  refine ⟨⟨[], _, _, rfl, by simp, by decide, rfl⟩, by decide,
    ⟨rfl, hostFirst.names, hostSecond.names, [], rfl, rfl, ?_, .inl rfl, by decide⟩, by decide⟩
  intro d listed
  have one : d = rabbitholeHostname.bytes ∨ d = text ['r', 'c', 'p'] := by
    simp [Certificate.names, hostFirst, hostSecond] at listed
    tauto
  rcases one with host | other
  · subst host
    exact rabbitholeHostname.terminated
  · subst other
    decide

end CertificateNames
