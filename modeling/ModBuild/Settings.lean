/-!
# Settings

Where the core library lives and how long to wait for it.  The defaults are the
public repository and the public Maven repository.  Two variables of the
environment replace them, unless they are empty.
-/

namespace ModBuild

/-- Where the core library lives and how long to wait for it. -/
structure Settings where
  /-- The Git repository that is cloned for the newest version. -/
  repository : String := "https://github.com/TeamOpenIndustry/UniversalModCore.git"
  /-- The Maven repository that holds the released binaries. -/
  mavenUrl : String := "https://teamopenindustry.cc/maven"
  /-- The file of the source tree that holds the version line. -/
  buildFile : String := "build.gradle"
  /-- What the version line starts with. -/
  versionPrefix : String := "String umcVersion = "
  /-- The seconds that one run of Git may take. -/
  gitTimeout : Int := 300
  /-- The seconds that the Maven repository may take to answer. -/
  downloadTimeout : Int := 60
deriving DecidableEq, Repr

namespace Settings

/-- The variable of the environment for the Git repository. -/
def repositoryVariable : String := "UMCLOADER_UPSTREAM_REPOSITORY"

/-- The variable of the environment for the Maven repository. -/
def mavenVariable : String := "UMCLOADER_MAVEN_URL"

/-- A URL without the slashes at its end. -/
def withoutEndSlashes (url : String) : String :=
  .ofList (url.toList.reverse.dropWhile (· == '/')).reverse

/-- Settings with another Git repository, unless the text is absent or empty. -/
def withRepository (s : Settings) (url : Option String) : Settings :=
  match url.filter (· ≠ "") with
  | some url => { s with repository := url }
  | none => s

/-- Settings with another Maven repository, unless the text is absent or empty. -/
def withMavenUrl (s : Settings) (url : Option String) : Settings :=
  match url.filter (· ≠ "") with
  | some url => { s with mavenUrl := withoutEndSlashes url }
  | none => s

/-- The defaults, as far as an environment does not replace them. -/
def ofEnvironment (environment : List (String × String)) : Settings :=
  let s : Settings := {}
  (s.withRepository (environment.lookup repositoryVariable)).withMavenUrl
    (environment.lookup mavenVariable)

end Settings

end ModBuild
