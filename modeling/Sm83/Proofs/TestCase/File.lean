import Sm83.TestCase.File
import Sm83.Proofs.Gzip.Stored
import Sm83.Proofs.Path
import Sm83.Proofs.TestCase.Codec
import Sm83.Proofs.Text.Utf8

/-!
Files of test cases. What is written is what is loaded, as plain text or compressed (`load_of_written`), and
which of the two a file is taken for is a matter of how its name ends (`kind_of_isFileName`).
-/
namespace Sm83

def FileAccess.put (files : FileAccess Id) (path : String) (content : ByteArray) : FileAccess Id where
  read other := if other = path then .ok content else files.read other
  isFile other := other = path || files.isFile other

namespace TestCase

def content (ts : List TestCase) : ByteArray := (String.ofList (print ts)).toUTF8

private theorem isCompressed_of_fileName? {path : Path} {name : List UInt8}
    (file : path.fileName? = some name) :
    (isCompressed path ↔ Path.nameExtension? name = some ("gz" : Path).bytes) := by
  rw [isCompressed,Path.extension?,file,Option.bind_some,beq_iff_eq]

private theorem not_isCompressed_of_json {path : Path} {name : List UInt8}
    (file : path.fileName? = some name) (ends : (".json" : Path).bytes <:+ name) :
    isCompressed path = false := by
  obtain ⟨stem,rfl⟩ := ends
  rw [Bool.eq_false_iff,ne_eq,isCompressed_of_fileName? file]
  -- A name that begins with its only dot has no extension at all.
  by_cases bare : stem = []
  · rw [bare]
    decide
  · have extension := Path.nameExtension?_append ("json" : Path).bytes bare (by decide)
    have text : (".json" : Path).bytes = Path.dot :: ("json" : Path).bytes := by decide
    rw [text,extension]
    decide

private theorem isCompressed_of_json_gz {path : Path} {name : List UInt8}
    (file : path.fileName? = some name) (ends : (".json.gz" : Path).bytes <:+ name) :
    isCompressed path := by
  obtain ⟨stem,rfl⟩ := ends
  have filled : stem ++ (".json" : Path).bytes ≠ [] := by
    rw [ne_eq,List.append_eq_nil_iff,not_and]
    exact fun _ => by decide
  have extension := Path.nameExtension?_append ("gz" : Path).bytes filled (by decide)
  have text : (".json.gz" : Path).bytes = (".json" : Path).bytes ++ Path.dot :: ("gz" : Path).bytes := by decide
  rw [isCompressed_of_fileName? file,text,← List.append_assoc,extension]

private theorem isCompressed_json (name : String) : isCompressed (name ++ ".json" : String) = false := by
  obtain ⟨_,file,ends⟩ := Path.exists_fileName?_coe name ".json" (by decide) (by decide)
  exact not_isCompressed_of_json file ends

private theorem isCompressed_json_gz (name : String) :
    isCompressed (name ++ ".json.gz" : String) = true := by
  obtain ⟨_,file,ends⟩ := Path.exists_fileName?_coe name ".json.gz" (by decide) (by decide)
  exact isCompressed_of_json_gz file ends

private theorem isFileName_of_fileName? {path : Path} {name : List UInt8}
    (file : path.fileName? = some name) :
    isFileName path ↔ (".json" : Path).bytes <:+ name ∨ (".json.gz" : Path).bytes <:+ name := by
  have json : ".json".toList.map Text.Utf8.byte = (".json" : Path).bytes := by decide
  have gz : ".json.gz".toList.map Text.Utf8.byte = (".json.gz" : Path).bytes := by decide
  rw [isFileName,file,← json,← gz,← Text.Utf8.suffix_lossy_iff (List.all_eq_true.mp (by decide)),
    ← Text.Utf8.suffix_lossy_iff (List.all_eq_true.mp (by decide))]
  simp only [Bool.or_eq_true,List.isSuffixOf_iff_suffix]

private theorem exists_name_of_isFileName {path : Path} (named : isFileName path) :
    ∃ name, path.EndsIn name ∧
    path.fileName? = some name ∧ ((".json" : Path).bytes <:+ name ∨ (".json.gz" : Path).bytes <:+ name) := by
  cases file : path.fileName? with
  | none =>
    rw [isFileName,file] at named
    cases named
  | some name =>
    exact ⟨name,(Path.fileName?_eq_some_iff.mp file).1,rfl,(isFileName_of_fileName? file).mp named⟩

private theorem ofBytes_of_parsed {text : String} {ts : List TestCase}
    (parsed : (Json.Value.parse? text.toList).bind listOfJson? = some ts) :
    ofBytes false text.toUTF8 = .ok ts := by
  have decoded : String.fromUTF8? text.toUTF8 = some text := by
    rw [String.fromUTF8?]
    exact dif_pos text.isValidUTF8
  simp only [ofBytes,Bool.false_eq_true,↓reduceIte,Option.bind_some,decoded,parsed]

theorem ofBytes_content (ts : List TestCase) : ofBytes false (content ts) = .ok ts := by
  apply ofBytes_of_parsed
  rw [String.toList_ofList,listOfJson?_print]

theorem load_put (files : FileAccess Id) (path : String) (bytes : ByteArray) :
    load (files.put path bytes) path = ofBytes (isCompressed path) bytes := by
  have read : (files.put path bytes).read path = .ok bytes := if_pos rfl
  rw [load,read]
  rfl

section
variable {compress : ByteArray → ByteArray}

def stored (compress : ByteArray → ByteArray) (path : String) (ts : List TestCase) : ByteArray :=
  if isCompressed path then compress (content ts) else content ts

theorem load_stored (inverts : ∀ data, Gzip.decompress? (compress data) = some data)
    (files : FileAccess Id) (path : String) (ts : List TestCase) :
    load (files.put path (stored compress path ts)) path = .ok ts := by
  rw [load_put,stored]
  cases isCompressed path with
  | false => exact ofBytes_content ts
  | true =>
    have opened : ofBytes true (compress (content ts)) = ofBytes false (content ts) := by
      simp [ofBytes,inverts]
    exact opened.trans (ofBytes_content ts)

/-- Whatever the cases are and whatever the files are called, the cases that were written are those
that are loaded; so what has been loaded, by any path, may be written and loaded again. All that
matters of the compression is that it can be undone. -/
theorem load_of_written (inverts : ∀ data, Gzip.decompress? (compress data) = some data)
    (files : FileAccess Id) :
    (∀ (ts : List TestCase) (name : String),
      load (files.put (name ++ ".json") (content ts)) (name ++ ".json") = .ok ts ∧
        load (files.put (name ++ ".json.gz") (compress (content ts))) (name ++ ".json.gz") = .ok ts) ∧
      ∀ (ts : List TestCase) (old new : String), load files old = .ok ts →
        load (files.put new (stored compress new ts)) new = load files old := by
  refine ⟨fun ts name => ⟨?_,?_⟩,fun ts old new loaded => ?_⟩
  · have written := load_stored inverts files (name ++ ".json") ts
    rwa [stored,isCompressed_json,if_neg Bool.false_ne_true] at written
  · have written := load_stored inverts files (name ++ ".json.gz") ts
    rwa [stored,isCompressed_json_gz,if_pos rfl] at written
  · exact (load_stored inverts files new ts).trans loaded.symm

end

/-- Registers as a list, a null and an escape. -/
def foreign : String := "[[\"\\u0041\",[0,1,2,3,4,5,6,7,8,9,1,null,[]],[1,1,2,3,4,5,6,7,8,9,1,0,[[256,9]]],[null]]]"

def familiar : List TestCase := [{
  name := "A"
  initial := {
    pc := 0, sp := 1, a := 2, b := 3, c := 4, d := 5, e := 6, f := 7, h := 8, l := 9, ime := 1, ram := []}
  expected := {
    pc := 1, sp := 1, a := 2, b := 3, c := 4, d := 5, e := 6, f := 7, h := 8, l := 9, ime := 1, ie := some 0,
    ram := [(256,9)]}
  cycles := [none]}]

def shelf : FileAccess Id := (FileTree.access []).put "old.json" foreign.toUTF8

theorem load_of_written_foreign :
    (∀ data, Gzip.decompress? (Gzip.store data) = some data) ∧ load shelf "old.json" = .ok familiar ∧
      load (shelf.put "new.json.gz" (Gzip.store (content familiar))) "new.json.gz" = .ok familiar ∧
      load (shelf.put "a/new.json" (stored Gzip.store "a/new.json" familiar)) "a/new.json" =
        load shelf "old.json" := by
  obtain ⟨written,again⟩ := load_of_written Gzip.decompress?_store shelf
  have plain : isCompressed "old.json" = false := isCompressed_json "old"
  have loaded : load shelf "old.json" = .ok familiar := by
    rw [shelf,load_put,plain]
    apply ofBytes_of_parsed
    decide +kernel
  exact ⟨Gzip.decompress?_store,loaded,(written familiar "new").2,again familiar "old.json" "a/new.json" loaded⟩

private theorem ofBytes_true (content : ByteArray) : ofBytes true content =
    (Gzip.decompress? content).elim (.error .unreadable) (ofBytes false) := by
  cases opened : Gzip.decompress? content <;> simp [ofBytes,opened]

/-- A file that passes for one of test cases is decompressed exactly if its name ends in `.json.gz`, and is
taken as it is exactly if its name ends in `.json`, whatever stands before that and behind the name. -/
theorem kind_of_isFileName {path : Path} (named : isFileName path) :
    ∃ name, path.EndsIn name ∧ (∀ other, path.EndsIn other → other = name) ∧
      (isCompressed path = true ↔ (".json.gz" : Path).bytes <:+ name) ∧
      (isCompressed path = false ↔ (".json" : Path).bytes <:+ name) ∧
      (∀ content, (".json.gz" : Path).bytes <:+ name → ofFile path (.ok content) =
        (Gzip.decompress? content).elim (.error .unreadable) (ofBytes false)) ∧
      (∀ content, (".json" : Path).bytes <:+ name → ofFile path (.ok content) = ofBytes false content) ∧
      ∀ (files : FileAccess Id) (text : String), (text : Path) = path →
        load files text = ofFile path (files.read text) := by
  obtain ⟨name,ends,file,kind⟩ := exists_name_of_isFileName named
  have compressed : (".json.gz" : Path).bytes <:+ name → isCompressed path = true :=
    isCompressed_of_json_gz file
  have plain : (".json" : Path).bytes <:+ name → isCompressed path = false := not_isCompressed_of_json file
  refine ⟨name,ends,fun other again => again.unique ends,⟨?_,compressed⟩,⟨?_,plain⟩,?_,?_,?_⟩
  · intro marked
    exact kind.resolve_left fun json => absurd (marked.symm.trans (plain json)) (by decide)
  · intro unmarked
    exact kind.resolve_right fun gz => absurd ((compressed gz).symm.trans unmarked) (by decide)
  · intro content gz
    rw [ofFile,compressed gz,ofBytes_true]
  · intro content json
    rw [ofFile,plain json]
  · rintro files text rfl
    rfl

/-- A name that is its own ending, in a directory whose name is not text. -/
def hidden : Path := ⟨0xFF :: ("/.json.gz/.//" : Path).bytes⟩

theorem kind_of_isFileName_hidden :
    isFileName hidden ∧ hidden.EndsIn (".json.gz" : Path).bytes ∧ isCompressed hidden = true ∧
      isFileName "a/b.json.gz.json/" ∧ Path.EndsIn "a/b.json.gz.json/" ("b.json.gz.json" : Path).bytes ∧
      ∀ content, ofFile "a/b.json.gz.json/" (.ok content) = ofBytes false content := by
  have named : isFileName hidden := by decide +kernel
  have other : isFileName "a/b.json.gz.json/" := by decide +kernel
  have ends : hidden.EndsIn (".json.gz" : Path).bytes :=
    ⟨by decide,by decide,[0xFF,Path.slash],("/.//" : Path).bytes,by decide,.inr ⟨[0xFF],rfl⟩,
      .stay (.slash (.slash .nil))⟩
  have plainly : Path.EndsIn "a/b.json.gz.json/" ("b.json.gz.json" : Path).bytes :=
    ⟨by decide,by decide,("a/" : Path).bytes,("/" : Path).bytes,by decide,.inr ⟨("a" : Path).bytes,by decide⟩,
      .slash .nil⟩
  obtain ⟨_,-,only,compressed,-⟩ := kind_of_isFileName named
  obtain ⟨_,-,single,-,-,-,plain,-⟩ := kind_of_isFileName other
  rw [← only _ ends] at compressed
  rw [← single _ plainly] at plain
  exact ⟨named,ends,compressed.mpr (List.suffix_refl _),other,plainly,
    fun content => plain content ⟨("b.json.gz" : Path).bytes,by decide⟩⟩

end TestCase
end Sm83
