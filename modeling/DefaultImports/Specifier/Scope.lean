import DefaultImports.Path.Basic
import DefaultImports.Pattern.Match

/-! Module specifiers and the ones worth checking. -/
namespace DefaultImports.Specifier

/-- Rooted at the directory of the importing file. -/
def isRelative (specifier : String) : Bool :=
  specifier == "." || specifier == ".." ||
    ["./", "../", ".\\", "..\\"].any fun start => start.toList.isPrefixOf specifier.toList

def assetExtensions : List String := ["png", "jpg", "jpeg", "gif", "svg", "ico", "webp"]

/-- An asset extension at the end, in any case. -/
def assetExtension : Pattern Empty :=
  .char '.' ++ (assetExtensions.map .anyCase).foldr .alt (.edge fun _ => false) ++
    .edge Cursor.atEnd

def assetDirectories : List String := ["assets", "images", "icons"]

def hasAssetDirectory (specifier : List Char) : Bool :=
  assetDirectories.any fun name =>
    (Pattern.word ("/" ++ name ++ "/") : Pattern Empty).occursIn
      (specifier.map fun c => if c == '\\' then '/' else c)

/-- Bundlers bind an asset as the default import whatever it holds. -/
def isAsset (specifier : String) : Bool :=
  assetExtension.occursIn specifier.toList || hasAssetDirectory specifier.toList

/-- Packages cannot be checked by looking at local files, and assets need no check. -/
def isOutOfScope (specifier : String) : Bool := !isRelative specifier || isAsset specifier

/-- In the order in which they are tried. -/
def sourceExtensions : List String := [".js", ".jsx", ".ts", ".tsx"]

def isSource (p : Path) : Bool := sourceExtensions.contains p.suffix

end DefaultImports.Specifier
