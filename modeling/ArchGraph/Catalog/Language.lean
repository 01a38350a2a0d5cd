import ArchGraph.Path
import ArchGraph.Text.Case
/-!
# Languages

The language of a file, by the extension of its name in any ASCII letter case.
-/

namespace ArchGraph.Language

/-- Languages by extension. -/
def byExtension : List (String × String) :=
  [("ts", "TypeScript"), ("tsx", "TypeScript"), ("mts", "TypeScript"), ("cts", "TypeScript"),
   ("js", "JavaScript"), ("jsx", "JavaScript"), ("mjs", "JavaScript"), ("cjs", "JavaScript"),
   ("svelte", "Svelte"), ("vue", "Vue"), ("astro", "Astro"), ("py", "Python"), ("rb", "Ruby"),
   ("go", "Go"), ("rs", "Rust"), ("java", "Java"), ("kt", "Kotlin"), ("swift", "Swift"),
   ("php", "PHP"), ("cs", "C#"), ("sql", "SQL"), ("css", "CSS"), ("scss", "CSS"),
   ("html", "HTML"), ("json", "JSON"), ("yaml", "YAML"), ("yml", "YAML"), ("toml", "TOML"),
   ("md", "Markdown"), ("mdx", "Markdown")]

/-- Languages that never count as the language of a project. -/
def nonCode : List String := ["JSON", "YAML", "TOML", "Markdown", "CSS", "HTML", "SQL"]

/-- The language of a file. -/
def ofPath? (path : String) : Option String :=
  byExtension.lookup (Text.asciiLowercase (Path.splitExtension (Path.fileName path)).2)

end ArchGraph.Language
