import Gatehouse.Html.Markup
import Gatehouse.Html.Renderer

set_option autoImplicit false

/-!
# The pages

What each view looks like. All pages share one layout, which has a place for a title, for the
content, and for scripts.
-/

namespace Gatehouse.Html

def layout (title : String) (content scripts : Markup) : Markup :=
  Markup.lines
      ["<!DOCTYPE html>",
        "<html lang=\"en\">",
        "<head>",
        "    <meta charset=\"utf-8\">",
        "    <title>"] ++
    [.markup title] ++
    Markup.lines
      ["</title>",
        "    <link rel=\"stylesheet\" href=\"/static/css/style.css\">",
        "</head>",
        "<body>",
        "    <main class=\"container\">",
        "        "] ++
    content ++
    Markup.lines ["", "    </main>", "    "] ++
    scripts ++
    Markup.lines ["", "</body>", "</html>"]

def flash (notice : Flash) : Markup :=
  [.markup "\n<div class=\"flash flash-", .text notice.level.name, .markup "\">",
    .text notice.message, .markup "</div>\n"]

def flashes (notices : List Flash) : Markup :=
  notices.flatMap flash

def errorParagraph : Option String → Markup
  | some reason => [.markup "\n<p class=\"error\">", .text reason, .markup "</p>\n"]
  | none => []

/-- A form for a name and a password, under its notices. -/
def credentialsForm (heading action button aside : String) (error : Option String)
    (notices : List Flash) : Markup :=
  Markup.lines ["", "<h1>" ++ heading ++ "</h1>", ""] ++
    flashes notices ++
    [.markup "\n"] ++
    errorParagraph error ++
    Markup.lines
      ["",
        "<form method=\"post\" action=\"" ++ action ++ "\">",
        "    <label>Username <input type=\"text\" name=\"username\" required></label>",
        "    <label>Password <input type=\"password\" name=\"password\" required></label>",
        "    <button type=\"submit\">" ++ button ++ "</button>",
        "</form>",
        "<p>" ++ aside ++ "</p>",
        ""]

def login (error : Option String) (notices : List Flash) : Markup :=
  layout "Log in"
    (credentialsForm "Log in" "/login" "Log in"
      "No account yet? <a href=\"/register\">Register</a>" error notices) []

def register (error : Option String) (notices : List Flash) : Markup :=
  layout "Register"
    (credentialsForm "Register" "/register" "Register"
      "Already registered? <a href=\"/login\">Log in</a>" error notices) []

def game (board : Board) (score : Int64) : Markup :=
  let rows := toString board.rows.toNat
  let cols := toString board.cols.toNat
  let mines := toString board.mines.toNat
  layout "Minesweeper"
    (Markup.lines
        ["",
          "<header class=\"toolbar\">",
          "    <h1>Minesweeper</h1>",
          "    <nav>",
          "        <a href=\"/profile\">Profile</a>",
          "        <a href=\"/logout\">Log out</a>",
          "    </nav>",
          "</header>",
          "<section class=\"status\">",
          "    <span>Mines: <span class=\"mines\">"] ++
      [.text mines] ++
      Markup.lines
        ["</span></span>",
          "    <span>Time: <span class=\"timer\">0</span>s</span>",
          "    <span>Score: <span class=\"score\">0</span></span>",
          "    <span>Best: <span class=\"best-score\">"] ++
      [.text (toString score.toInt)] ++
      Markup.lines
        ["</span></span>", "</section>", "<div class=\"game-board\" data-rows=\""] ++
      [.text rows, .markup "\" data-cols=\"", .text cols, .markup "\" data-mines=\"",
        .text mines] ++
      Markup.lines
        ["\"></div>",
          "<div class=\"game-over hidden\"></div>",
          "<button class=\"restart\" type=\"button\">Restart</button>",
          ""])
    (Markup.lines ["", "<script src=\"/static/js/minesweeper.js\"></script>", ""])

def profile (username : Username) (score : Int64) : Markup :=
  layout "Profile"
    (Markup.lines ["", "<h1>Profile</h1>", "<dl>", "    <dt>Username</dt>", "    <dd>"] ++
      [.text username.text] ++
      Markup.lines ["</dd>", "    <dt>Score</dt>", "    <dd>"] ++
      [.text (toString score.toInt)] ++
      Markup.lines
        ["</dd>",
          "</dl>",
          "<a href=\"/\">Back to the game</a>",
          "<a href=\"/logout\">Log out</a>",
          ""])
    []

def welcome (notices : List Flash) : Markup :=
  layout "Welcome"
    (Markup.lines ["", "<h1>Welcome</h1>", ""] ++
      flashes notices ++
      Markup.lines
        ["",
          "<nav>",
          "    <a href=\"/login\">Log in</a>",
          "    <a href=\"/register\">Register</a>",
          "</nav>",
          ""])
    []

def success (notices : List Flash) : Markup :=
  layout "Logged in"
    ([.markup "\n"] ++
      flashes notices ++
      Markup.lines ["", "<h1>You are logged in</h1>", "<a href=\"/logout\">Log out</a>", ""])
    []

/-- The class of an item tells whether it is done. -/
def todoItem (item : TodoItem) : Markup :=
  [.markup "\n    <li class=\"todo", .markup (if item.completed then " completed" else ""),
    .markup "\">\n        <h2>", .text (toString item.id.toNat), .markup ". ", .text item.title,
    .markup "</h2>\n        <time>", .text item.time, .markup "</time>\n        <p>",
    .text item.content, .markup "</p>\n    </li>\n    "]

def todoItems : List TodoItem → Markup
  | [] => Markup.lines ["", "<p>Nothing to do.</p>", ""]
  | items =>
    Markup.lines ["", "<ul class=\"todos\">", "    "] ++
      items.flatMap todoItem ++
      Markup.lines ["", "</ul>", ""]

def todoList (items : List TodoItem) : Markup :=
  layout "To-do list"
    (Markup.lines ["", "<h1>To-do list</h1>", "<a href=\"/new\">New item</a>", ""] ++
      todoItems items ++
      [.markup "\n"])
    []

def newTodo : Markup :=
  layout "New to-do"
    (Markup.lines
      ["",
        "<h1>New to-do</h1>",
        "<form method=\"post\" action=\"/new\">",
        "    <label>Title <input type=\"text\" name=\"title\" required></label>",
        "    <label>Time <input type=\"text\" name=\"time\"></label>",
        "    <label>Content <textarea name=\"content\"></textarea></label>",
        "    <button type=\"submit\">Save</button>",
        "</form>",
        "<a href=\"/\">Back</a>",
        ""])
    []

def ofView : View → Markup
  | .game board score => game board score
  | .profile username score => profile username score
  | .login error notices => login error notices
  | .register error notices => register error notices
  | .welcome notices => welcome notices
  | .success notices => success notices
  | .todoList items => todoList items
  | .newTodo => newTodo

/-- The renderer of these pages. It never fails. -/
def renderer : Renderer where
  render view := .ok (ofView view).toDocument

end Gatehouse.Html
